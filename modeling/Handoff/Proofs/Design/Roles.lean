import Handoff.Design.Role
import Handoff.Proofs.Data.Table
import Handoff.Proofs.Design.Typed

/-!
The three ways to decide about a layer.

Whether a layer is exported, in which format and how it appears are decided one by one, with different
tests first. They agree on layers of the right types.
-/

namespace Handoff.Design

/-- The decisions about the top layer of a tree agree: it appears as a picture exactly when it is
exported, and as a picture of its format. -/
structure DecidesAlike (tree : LayerTree) (role : Role) (format : Option ExportFormat) : Prop where
  appears : roleOf tree = .ok role
  exported : tree.label.exportFormat? = .ok format
  candidate : tree.label.isAssetCandidate = .ok role.isAsset
  asset : role.isAsset = format.isSome
  vector : role = .vectorAsset ↔ format = some .svg
  raster : role = .rasterAsset ↔ format = some .png

/-- A layer without a format is no picture. -/
lemma roleOf_of_exportFormat_none {tree : LayerTree} (htype : tree.label.typeName.IsSomeText)
    (h : tree.label.exportFormat? = .ok none) :
    ∃ role, roleOf tree = .ok role ∧ role.isAsset = false := by
  obtain ⟨nonVisual, hone⟩ := htype.isOneOf nonVisualTypes
  simp only [roleOf, h, ok_bind, hone]
  split
  · split
    · exact ⟨.text, rfl, rfl⟩
    · exact ⟨.decoration, rfl, rfl⟩
  split
  · exact ⟨.decoration, rfl, rfl⟩
  split
  · exact ⟨.shape, rfl, rfl⟩
  · exact ⟨.container, rfl, rfl⟩

/-- The decisions agree on every layer whose fields have their types. -/
theorem exists_decidesAlike {tree : LayerTree} (h : tree.label.ExportTyped) :
    ∃ role format, DecidesAlike tree role format := by
  obtain ⟨format, hformat, hcandidate⟩ := h.exportFormat
  obtain ⟨b, hb⟩ := h.isAssetCandidate
  have hsome : b = format.isSome := by
    rw [Bool.eq_iff_iff, hcandidate, hb, Except.ok.injEq]
  subst hsome
  have hgives {role : Role} (hrole : roleOf tree = .ok role) (hasset : role.isAsset = format.isSome)
      (hsvg : role = .vectorAsset ↔ format = some .svg)
      (hpng : role = .rasterAsset ↔ format = some .png) : ∃ role format, DecidesAlike tree role format :=
    ⟨role, format, hrole, hformat, hb.trans (congrArg _ hasset.symm), hasset, hsvg, hpng⟩
  rcases format with _ | _ | _
  · obtain ⟨role, hrole, hasset⟩ := roleOf_of_exportFormat_none h.typeName hformat
    refine hgives hrole hasset ?_ ?_ <;> cases role <;> simp_all [Role.isAsset]
  · have hvector : roleOf tree = .ok .vectorAsset := by rw [roleOf, hformat]; rfl
    exact hgives hvector rfl (by simp) (by simp)
  · have hraster : roleOf tree = .ok .rasterAsset := by rw [roleOf, hformat]; rfl
    exact hgives hraster rfl (by simp) (by simp)

end Handoff.Design
