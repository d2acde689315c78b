/-
Nestings: the formula cells that are being evaluated.

Evaluating a formula evaluates the formulas that its operands lead to, and so on.  A nesting lists
the cells on the way, outermost first, each under the name by which it was reached.  Under
`LoopPolicy.full` it also keeps the set of their positions, in which a loop shows as soon as it
closes.

Main results:

* `Nesting.pop_push` — **leaving undoes entering** a cell that was not entered before;
* `Nesting.Sound` — the set of positions agrees with the list, as `push` and `pop` keep it.
-/

import FormulaGrid.Position
import FormulaGrid.Settings

set_option relaxedAutoImplicit false
set_option autoImplicit false

namespace FormulaGrid

/-- The formula cells that are being evaluated. -/
structure Nesting where
  /-- The cells with the names by which they were reached, outermost first. -/
  links : Array (Position × String) := #[]
  /-- The positions of these cells, kept only where loops are looked for. -/
  active : Std.ExtTreeSet Position := ∅

namespace Nesting

/-- The nesting in which no formula is being evaluated. -/
def empty : Nesting := {}

/-- The number of formulas that are being evaluated. -/
def depth (n : Nesting) : Nat := n.links.size

/-- The names on the way from a cell that is being evaluated to here: the names of a loop that
would close at that cell. -/
def namesFrom? (n : Nesting) (p : Position) : Option (List String) :=
  if p ∈ n.active then some ((n.links.toList.dropWhile (·.1 ≠ p)).map (·.2)) else none

/-- Goes into a formula cell. -/
def push (policy : LoopPolicy) (p : Position) (name : String) (n : Nesting) : Nesting where
  links := n.links.push (p, name)
  active := if policy = .full then n.active.insert p else n.active

/-- Goes back out of the innermost cell. -/
def pop (n : Nesting) : Nesting :=
  match n.links.back? with
  | some (p, _) => ⟨n.links.pop, n.active.erase p⟩
  | none => n

/-- The positions of the cells, outermost first. -/
def positions (n : Nesting) : List Position := n.links.toList.map (·.1)

/-- The set of positions agrees with the list: under full detection it holds exactly the positions
of the list, each of which stands there once, and otherwise it is empty. -/
def Sound (policy : LoopPolicy) (n : Nesting) : Prop :=
  match policy with
  | .full => n.positions.Nodup ∧ ∀ p, p ∈ n.active ↔ p ∈ n.positions
  | .selfOnly => n.active = ∅

theorem sound_empty (policy : LoopPolicy) : empty.Sound policy := by
  cases policy
  · rfl
  · simp [Sound, empty, positions]

@[simp] theorem depth_push (policy : LoopPolicy) (p : Position) (name : String) (n : Nesting) :
    (n.push policy p name).depth = n.depth + 1 := by
  simp [depth, push]

/-- **Leaving undoes entering** a cell that was not entered before. -/
theorem pop_push {policy : LoopPolicy} {p : Position} {n : Nesting} (h : p ∉ n.active)
    (name : String) : (n.push policy p name).pop = n := by
  obtain ⟨links, active⟩ := n
  have herase : active.erase p = active := by
    apply Std.ExtTreeSet.ext_mem
    intro q
    rw [Std.ExtTreeSet.mem_erase]
    refine ⟨fun hq => hq.2, fun hq => ⟨fun e => ?_, hq⟩⟩
    exact h (Std.LawfulEqOrd.eq_of_compare e ▸ hq)
  have hinsert : (active.insert p).erase p = active := by
    apply Std.ExtTreeSet.ext_mem
    intro q
    rw [Std.ExtTreeSet.mem_erase, Std.ExtTreeSet.mem_insert]
    refine ⟨fun hq => hq.2.resolve_left hq.1, fun hq => ⟨fun e => ?_, .inr hq⟩⟩
    exact h (Std.LawfulEqOrd.eq_of_compare e ▸ hq)
  simp only [push, pop, Array.back?_push, Array.pop_push]
  split <;> simp [herase, hinsert]

/-- Entering a cell that closes no loop keeps the set of positions in agreement. -/
theorem Sound.push {policy : LoopPolicy} {n : Nesting} (h : n.Sound policy) {p : Position}
    (hp : p ∉ n.active) (name : String) : (n.push policy p name).Sound policy := by
  cases policy with
  | selfOnly => simpa [Sound, Nesting.push] using h
  | full =>
      obtain ⟨hnodup, hmem⟩ := h
      have hp' : p ∉ n.positions := fun hq => hp ((hmem p).2 hq)
      refine ⟨?_, fun q => ?_⟩
      · have : (n.push .full p name).positions = n.positions ++ [p] := by
          simp [positions, Nesting.push]
        rw [this, List.nodup_append]
        refine ⟨hnodup, by simp, ?_⟩
        intro a ha b hb
        rw [List.mem_singleton] at hb
        rintro rfl
        exact hp' (hb ▸ ha)
      · have hq := hmem q
        simp only [Nesting.push, if_true, Std.ExtTreeSet.mem_insert, positions, Array.toList_push,
          List.map_append, List.map_cons, List.map_nil, List.mem_append, List.mem_singleton] at hq ⊢
        rw [Std.LawfulEqCmp.compare_eq_iff_eq, hq, or_comm]
        exact or_congr Iff.rfl eq_comm

end Nesting

end FormulaGrid
