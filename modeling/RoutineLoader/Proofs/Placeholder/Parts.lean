import RoutineLoader.Proofs.Placeholder.Simultaneous

/-!
# What stands in a text and what is sent for it

A text falls into parts: the keys that are replaced, the characters that are copied, and the line
feeds between the lines. Put together as they are written, the parts are the joined lines
(`flatMap_written_partsFrom`), and put together as they are sent they are what the substitution
makes of the lines (`flatMap_sent_partsFrom`).
-/

namespace RoutineLoader.Placeholder

/-- A part of a text, as it is written and as it is sent. -/
structure Part where
  written : List Char
  sent : List Char
  deriving DecidableEq

/-- A character that is sent as it is written. -/
def Part.kept (c : Char) : Part :=
  ⟨[c], [c]⟩

theorem Part.flatMap_written_map_kept (text : List Char) :
    (text.map kept).flatMap written = text := by
  simp [List.flatMap_map, kept]

theorem Part.flatMap_sent_map_kept (text : List Char) : (text.map kept).flatMap sent = text := by
  simp [List.flatMap_map, kept]

namespace Substitution

/-- The parts of a line. -/
def partsOfLine (σ : Substitution) (line : Nat) : List Char → List Part
  | [] => []
  | c :: text =>
    match σ.match? (c :: text) with
    | some (key, r) => ⟨key, r.onLine line⟩ :: partsOfLine σ line (text.drop (key.length - 1))
    | none => .kept c :: partsOfLine σ line text
termination_by text => text.length
decreasing_by all_goals simp +arith

/-- The parts of a text with these lines, numbered from `line` on. -/
def partsFrom (σ : Substitution) : (line : Nat) → List (List Char) → List Part
  | _, [] => []
  | line, [text] => σ.partsOfLine line text
  | line, text :: next :: rest =>
    σ.partsOfLine line text ++ .kept '\n' :: σ.partsFrom (line + 1) (next :: rest)

variable {σ : Substitution}

theorem flatMap_sent_partsOfLine (σ : Substitution) (line : Nat) (text : List Char) :
    (σ.partsOfLine line text).flatMap Part.sent = σ.applyLine line text := by
  induction text using applyLine.induct σ with
  | case1 => rw [partsOfLine, applyLine, List.flatMap_nil]
  | case2 c text key r hmatch ih =>
    rw [partsOfLine, applyLine, hmatch]
    simp only [List.flatMap_cons, ih]
  | case3 c text hmatch ih =>
    rw [partsOfLine, applyLine, hmatch]
    simp only [List.flatMap_cons, ih, Part.kept, List.singleton_append]

theorem flatMap_written_partsOfLine (hne : ∀ e ∈ σ.entries, e.1 ≠ []) (line : Nat)
    (text : List Char) : (σ.partsOfLine line text).flatMap Part.written = text := by
  induction text using applyLine.induct σ with
  | case1 => rw [partsOfLine, List.flatMap_nil]
  | case2 c text key r hmatch ih =>
    rw [partsOfLine, hmatch]
    simp only [List.flatMap_cons, ih]
    have hstarts := List.find?_some hmatch
    obtain ⟨rest, hrest⟩ := Text.isSome_dropStart?_iff.mp hstarts
    have hkey := hne _ (List.mem_of_find?_eq_some hmatch)
    obtain ⟨first, tail, rfl⟩ := List.exists_cons_of_ne_nil hkey
    obtain rfl : text = tail ++ rest := (List.cons.inj hrest).2.symm
    rw [List.length_cons, Nat.add_sub_cancel, List.drop_left, hrest]
  | case3 c text hmatch ih =>
    rw [partsOfLine, hmatch]
    simp only [List.flatMap_cons, ih, Part.kept, List.singleton_append]

theorem flatMap_sent_partsFrom (σ : Substitution) (line : Nat) (lines : List (List Char)) :
    (σ.partsFrom line lines).flatMap Part.sent =
      Text.joinWith ['\n'] (σ.applyFrom line lines) := by
  fun_induction partsFrom σ line lines with
  | case1 => rfl
  | case2 line text => rw [flatMap_sent_partsOfLine, applyFrom, applyFrom, Text.joinWith]
  | case3 line text next rest ih =>
    rw [applyFrom] at ih ⊢
    rw [applyFrom, Text.joinWith, ← ih, List.flatMap_append, flatMap_sent_partsOfLine,
      List.flatMap_cons, Part.kept, List.append_assoc]

theorem flatMap_written_partsFrom (hne : ∀ e ∈ σ.entries, e.1 ≠ []) (line : Nat)
    (lines : List (List Char)) :
    (σ.partsFrom line lines).flatMap Part.written = Text.joinWith ['\n'] lines := by
  fun_induction partsFrom σ line lines with
  | case1 => rfl
  | case2 line text => rw [flatMap_written_partsOfLine hne, Text.joinWith]
  | case3 line text next rest ih =>
    rw [Text.joinWith, ← ih, List.flatMap_append, flatMap_written_partsOfLine hne,
      List.flatMap_cons, Part.kept, List.append_assoc]

end Substitution

end RoutineLoader.Placeholder
