import Handoff.Proofs.Files.Relative
import Handoff.Proofs.Files.Taking

/-!
When it is settled whether there is a directory for files.

A save that something stands in the way of from the start changes nothing. The first other one makes
the directory, or finds it denied, and from then on no save changes the directories.
-/

namespace Handoff.Files

open Text

/-! ### Paths of files in a directory -/

/-- The path of a file in a directory. -/
def Path.file (dir : Path) (name : Text) : Path := ⟨dir.anchor, dir.parts ++ [name]⟩

/-- A name of ASCII characters other than the null character. -/
def IsPlainName (name : Text) : Prop := ∀ c ∈ name.toList, 0 < c.toNat ∧ c.toNat < 128

instance : DecidablePred IsPlainName := fun name =>
  inferInstanceAs (Decidable (∀ c ∈ name.toList, 0 < c.toNat ∧ c.toNat < 128))

namespace Path

variable {dir : Path} {name name' : Text}

@[simp] lemma parent_file : (dir.file name).parent = dir := by simp [file, parent]

lemma endsIn_file (hn : name ≠ "..") : (dir.file name).EndsIn name := endsIn_concat hn

lemma locate_file (here : Location) (hn : name ≠ "..") :
    (dir.file name).locate here = dir.locate here ++ [name] := by
  rw [file, locate_concat, step, if_neg hn]

lemma locate_file_ne (here : Location) (hn : name ≠ "..") (hn' : name' ≠ "..") (hne : name ≠ name') :
    (dir.file name).locate here ≠ (dir.file name').locate here := by
  rw [locate_file here hn, locate_file here hn']
  exact fun h => hne (List.cons.inj (List.append_cancel_left h)).1

/-- The path of a file is written as that of its directory and its name behind it. -/
lemma text_file (dir : Path) (name : Text) : ∃ front : Text, (dir.file name).text = front ++ name ∧
    (front = "" ∨ front = dir.text ∨ front = dir.text ++ "/") := by
  obtain ⟨a, ps⟩ := dir
  by_cases hps : ps = []
  · subst hps
    have hname : intercalate "/" [name] = name := ext_toList (by simp [intercalate])
    cases a with
    | here => exact ⟨"", ext_toList (by simp [file, text, hname]), Or.inl rfl⟩
    | root | doubleRoot =>
      exact ⟨_, ext_toList (by simp only [file, text, List.nil_append, hname]; rfl),
        Or.inr (Or.inl rfl)⟩
  · refine ⟨text ⟨a, ps⟩ ++ "/", ?_, Or.inr (Or.inr rfl)⟩
    have hconcat := intercalate_concat "/" name hps
    cases a with
    | here => simp [file, text, hps, hconcat]
    | root | doubleRoot =>
      refine ext_toList ?_
      simp only [file, text, hconcat, toList_append, List.append_assoc]

/-- The system can be asked about a plain name wherever it can be asked about the directory. -/
lemma isUsable_file (h : dir.isUsable = true) (hn : IsPlainName name) :
    (dir.file name).isUsable = true := by
  obtain ⟨front, htext, hfront⟩ := text_file dir name
  simp only [isUsable, surrogates?, surrogatesInName?, Bool.and_eq_true, Option.isNone_iff_eq_none,
    Workspace.surrogatesFrom_eq_none, Bool.not_eq_true', hasNull] at h ⊢
  constructor
  · intro i hi
    rw [htext, toList_append, List.mem_append] at hi
    have hname : CodePoint.surrogate i ∉ name.toList := by
      intro hmem
      have hlt := (hn _ hmem).2
      simp only [CodePoint.toNat, CodePoint.firstSurrogate] at hlt
      omega
    refine h.1 i ?_
    have hi := hi.resolve_right hname
    rcases hfront with rfl | rfl | rfl
    · cases hi
    · exact hi
    · refine (List.mem_append.1 hi).resolve_right ?_
      simp [toList_ofString]
  · rw [file, List.any_append, h.2, Bool.false_or, List.any_cons, List.any_nil, Bool.or_false]
    refine List.any_eq_false.2 fun c hc => ?_
    have hpos := (hn c hc).1
    simp only [decide_eq_true_eq]
    omega

end Path

lemma IsFileName.isPlainName {name stem ext : Text} (h : IsFileName name stem ext)
    (hext : IsPlainName ext) : IsPlainName name := by
  intro c hc
  rw [h.eq, toList_append, List.mem_append] at hc
  rcases hc with hc | hc
  · have hchar := isFileChar_iff.1 (h.stem_over c hc)
    rw [isWordChar_iff] at hchar
    omega
  · rcases List.mem_append.1 hc with hc | hc
    · cases List.mem_singleton.1 hc
      decide
    · exact hext c hc

namespace Workspace

variable {w w' : Workspace} {dir : Path} {name : Text} {content : ByteArray}

/-! ### Settled directories -/

/-- Nothing stands in the way of a save before its directory is made. -/
def Tries (w : Workspace) (path : Path) : Prop := ¬ (path.isUsable = true ∧ w.Blocked path)

/-- When the directory cannot be made, it is the system that fails. -/
def Ordinary (w : Workspace) (dir : Path) : Prop :=
  ∀ fault, (w.ensureDirectory dir).1 = .error fault → fault.ofSystem = true

/-- The directory is there, or nothing can make it. -/
structure Settled (w : Workspace) (dir : Path) : Prop where
  usable : dir.isUsable = true
  decided : w.isDirectory dir = true ∨ w.Denied dir

lemma Grows.settled (h : w.Grows w') (hs : w.Settled dir) : w'.Settled dir :=
  ⟨hs.usable, hs.decided.imp h.isDirectory h.denied⟩

/-- An attempt to make a directory settles it. -/
lemma settled_ensureDirectory (hw : w.Sound) (h : w.Ordinary dir) :
    (w.ensureDirectory dir).2.Settled dir := by
  cases hu : dir.isUsable with
  | false =>
    obtain ⟨fault, he, hsystem⟩ := ensureDirectory_of_not_usable w hu
    have hordinary := h fault (by rw [he])
    rw [hsystem] at hordinary
    cases hordinary
  | true =>
    have hensured := (ensureDirectory_ensured hw hu).2
    refine ⟨hu, ?_⟩
    rcases he : w.ensureDirectory dir with ⟨outcome, made⟩
    rw [he] at hensured
    cases hensured with
    | made hd => exact Or.inl hd
    | tooDeep => cases h _ (by rw [he])
    | denied t text hd => exact Or.inr hd

/-- Making a settled directory changes nothing. -/
lemma Settled.ensureDirectory_eq (h : w.Settled dir) (hw : w.Sound) :
    (w.ensureDirectory dir).2 = w ∧ w.Ordinary dir := by
  rcases h.decided with hd | hd
  · have he := ensureDirectory_of_isDirectory h.usable hd
    refine ⟨by rw [he], fun fault hf => ?_⟩
    rw [he] at hf
    cases hf
  · obtain ⟨t, he⟩ := ensureDirectory_of_denied hw h.usable hd
    refine ⟨by rw [he], fun fault hf => ?_⟩
    rw [he] at hf
    cases hf
    rfl

/-! ### Saves -/

/-- A save that something stands in the way of changes nothing. -/
lemma save_of_not_tries (content : ByteArray) {path : Path} (h : ¬ w.Tries path) :
    ∃ t, w.save path content = (.error (.file t path.text), w) := by
  obtain ⟨hu, hb⟩ := not_not.1 h
  obtain ⟨t, ht⟩ := holds_of_blocked content hu hb
  exact ⟨t, by rw [save, ht]⟩

lemma save_file_isOk_iff (dir : Path) (content : ByteArray) (hw : w.Sound) (hn : name ≠ "..") :
    (∃ b, (w.save (dir.file name) content).1 = .ok b) ↔ w.Takes (dir.file name) :=
  save_isOk_iff hw hn

/-- A tree that takes a file does not stand in the way of its save. -/
lemma Takes.tries (h : w.Takes (dir.file name)) (hw : w.Sound) : w.Tries (dir.file name) := by
  rintro ⟨hu, hb⟩
  obtain ⟨-, made, he, hfree⟩ := h
  rw [Path.parent_file] at he
  have hfounds := (ensureDirectory_ensured hw (isUsable_above hu)).1
  rw [show w.ensureDirectory ⟨dir.anchor, dir.parts⟩ = _ from he] at hfounds
  exact hfree (hfounds.grows.blocked hb)

/-- How a save goes that tries: the file is there, or the directory is made and the file written. -/
lemma save_of_tries (h : w.Tries (dir.file name)) (content : ByteArray) :
    (w.Stores (dir.file name) content ∧ w.save (dir.file name) content = (.ok false, w)) ∨
      w.save (dir.file name) content = match w.ensureDirectory dir with
        | (.error fault, made) => (.error fault, made)
        | (.ok (), made) => match made.write (dir.file name) content with
          | .error fault => (.error fault, made)
          | .ok after => (.ok true, after) := by
  rcases hh : holds w (dir.file name) content with fault | _ | _
  · obtain ⟨hu, hb, -⟩ := blocked_of_holds hh
    exact absurd ⟨hu, hb⟩ h
  · right
    rcases he : w.ensureDirectory dir with ⟨fault | ⟨⟨⟩⟩, made⟩
    · simp only [save, hh, Path.parent_file, he]
    · rcases hwrite : made.write (dir.file name) content with fault | after <;>
        simp only [save, hh, Path.parent_file, he, hwrite]
  · exact Or.inl ⟨stores_of_holds hh, save_of_stores (stores_of_holds hh)⟩

/-- The directory of a file that is there is there. -/
lemma Stores.isDirectory_parent (h : w.Stores (dir.file name) content) (hn : name ≠ "..") :
    w.Settled dir ∧ w.isDirectory dir = true := by
  obtain ⟨l, hl, -⟩ := look_eq_ok.1 h.look
  obtain ⟨place, hplace, hentry, -⟩ := place_concat_eq_ok hl hn
  have hdir : w.isDirectory dir = true := isDirectory_iff.2 ⟨place, hplace, hentry⟩
  exact ⟨⟨isUsable_above h.usable, Or.inl hdir⟩, hdir⟩

/-- When a save that tries fails for the system at most, so does making its directory. -/
lemma ordinary_of_save (content : ByteArray) (hw : w.Sound) (hn : name ≠ "..")
    (ht : w.Tries (dir.file name))
    (h : ∀ fault, (w.save (dir.file name) content).1 = .error fault → fault.ofSystem = true) :
    w.Ordinary dir := by
  rcases save_of_tries ht content with ⟨hstores, -⟩ | hsave
  · exact ((hstores.isDirectory_parent hn).1.ensureDirectory_eq hw).2
  · intro fault hf
    refine h fault ?_
    rcases he : w.ensureDirectory dir with ⟨outcome, made⟩
    rw [he] at hf
    cases hf
    rw [hsave, he]

/-- A save fails for the system at most, if making its directory does. -/
lemma ofSystem_of_save (content : ByteArray) (hw : w.Sound) (hn : IsPlainName name)
    (h : w.Tries (dir.file name) → w.Ordinary dir) {fault : Fault}
    (hf : (w.save (dir.file name) content).1 = .error fault) : fault.ofSystem = true := by
  by_cases ht : w.Tries (dir.file name)
  · rcases save_of_tries ht content with ⟨-, hsave⟩ | hsave <;> rw [hsave] at hf
    · cases hf
    · have hordinary := h ht
      have hsettled := settled_ensureDirectory hw hordinary
      rcases he : w.ensureDirectory dir with ⟨_ | ⟨⟨⟩⟩, made⟩ <;> rw [he] at hf
      · cases hf
        exact hordinary fault (by rw [he])
      · have hensured := (ensureDirectory_ensured hw hsettled.usable).2
        rw [he] at hensured
        have hdir : made.isDirectory dir = true := by
          cases hensured with
          | made hd => exact hd
        simp only at hf
        rcases hwrite : made.write (dir.file name) content with fault' | after <;> rw [hwrite] at hf
        · cases hf
          have hparts : (dir.file name).parts ≠ [] := by simp [Path.file]
          exact (write_error (Path.isUsable_file hsettled.usable hn)
            (by rwa [Path.parent_file]) hparts hwrite).2
        · cases hf
  · obtain ⟨t, hsave⟩ := save_of_not_tries content ht
    rw [hsave] at hf
    cases hf
    rfl

/-- A save that tries settles its directory. Elsewhere than at the place of a file that it takes, it
leaves what making the directory leaves. -/
lemma settled_of_save (hw : w.Sound) (hn : name ≠ "..") (ht : w.Tries (dir.file name))
    (h : w.Ordinary dir) (content : ByteArray) :
    (w.save (dir.file name) content).2.Settled dir ∧
      ∀ l, (w.Takes (dir.file name) → (dir.file name).locate w.here ≠ l) →
        Workspace.entry? (w.save (dir.file name) content).2 l =
          Workspace.entry? (w.ensureDirectory dir).2 l := by
  have hmade := settled_ensureDirectory hw h
  rcases save_of_tries ht content with ⟨hstores, hsave⟩ | hsave
  · obtain ⟨hsettled, -⟩ := hstores.isDirectory_parent hn
    rw [hsave, (hsettled.ensureDirectory_eq hw).1]
    exact ⟨hsettled, fun _ _ => rfl⟩
  · have htakes := save_file_isOk_iff dir content hw hn
    have hhere := w.here_ensureDirectory dir
    rw [hsave] at htakes ⊢
    rcases he : w.ensureDirectory dir with ⟨fault | ⟨⟨⟩⟩, made⟩ <;> rw [he] at hmade htakes hhere
    · exact ⟨hmade, fun _ _ => rfl⟩
    · simp only at htakes ⊢
      rcases hwrite : made.write (dir.file name) content with fault | after <;>
        rw [hwrite] at htakes
      · exact ⟨hmade, fun _ _ => rfl⟩
      · have hputs := write_eq_ok hn hwrite
        refine ⟨hputs.grows.settled hmade, fun l hl => ?_⟩
        obtain ⟨place, hplace, -, -, rfl⟩ := hputs.place
        rw [entry?_put _ _ _ _ (by simp), if_neg]
        rintro rfl
        refine hl (htakes.1 ⟨true, rfl⟩) ?_
        rw [← hhere]
        exact (eq_locate_of_place hplace).symm

end Workspace

end Handoff.Files
