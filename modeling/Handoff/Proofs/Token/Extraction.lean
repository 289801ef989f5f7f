import Handoff.Proofs.World.Steady
import Handoff.Token.Variables

/-!
The tokens of an answer, without the messages about them.
-/

namespace Handoff.Token

/-- What the variables of a table contribute, without messages. -/
def readingsOf (index : Index) : Fields → Except Fault (List Reading)
  | [] => .ok []
  | (id, entry) :: rest => do
    let reading ← readVariable index id entry
    return reading :: (← readingsOf index rest)

/-- The tokens of the answer to a variables request, without messages. -/
def tokensOf (payload : Value) : Except Fault Tokens := do
  let all ← (← variablesOf payload).fields
  return Tokens.ofReadings (← readingsOf (indexOf all) all)

lemma gives_readVariables (index : Index) (all : Fields) :
    (readVariables index all).Gives (readingsOf index all) := by
  induction all with
  | nil => exact Logged.gives_pure []
  | cons first rest ih =>
    obtain ⟨id, entry⟩ := first
    refine (Logged.gives_ofExcept _).bind fun reading => ?_
    have hrest := ih.bind fun others => Logged.gives_pure (reading :: others)
    cases reading with
    | unresolved name => exact hrest.after_log _ _
    | unnamed | colorless | token => exact hrest

lemma gives_extractTokens (payload : Value) : (extractTokens payload).Gives (tokensOf payload) := by
  have htable := Logged.gives_ofExcept (do (← variablesOf payload).fields)
  unfold tokensOf
  rw [← bind_assoc]
  refine htable.bind fun all => (gives_readVariables _ all).bind fun readings => ?_
  exact ((Logged.gives_pure _).after_log _ _ |>.after_log _ _).after_log _ _

end Handoff.Token
