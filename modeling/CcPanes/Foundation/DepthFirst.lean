import Mathlib.Logic.Relation

/-!
# Depth-first search in a list of edges
-/

namespace DepthFirst
open Relation List

variable {α : Type} {edges : List (α × α)} {goal a b s t : α} {stack visited : List α}

def Edge (edges : List (α × α)) (a b : α) : Prop := (a, b) ∈ edges

def Acyclic (edges : List (α × α)) : Prop := ∀ a, ¬ TransGen (Edge edges) a a

theorem insert_cases {edges' : List (α × α)}
    (hedges : ∀ a b, Edge edges' a b → Edge edges a b ∨ a = s ∧ b = t)
    (h : TransGen (Edge edges') a b) : TransGen (Edge edges) a b ∨
      ReflTransGen (Edge edges) a s ∧ ReflTransGen (Edge edges) t b := by
  induction h with
  | single hedge =>
    obtain hedge | ⟨rfl, rfl⟩ := hedges _ _ hedge
    · exact .inl (.single hedge)
    · exact .inr ⟨.refl, .refl⟩
  | tail _ hedge ih =>
    obtain hedge | ⟨rfl, rfl⟩ := hedges _ _ hedge
    · exact ih.imp (·.tail hedge) fun h => ⟨h.1, h.2.tail hedge⟩
    · obtain h | h := ih
      · exact .inr ⟨h.to_reflTransGen, .refl⟩
      · exact .inr ⟨h.1, .refl⟩

theorem Acyclic.insert {edges' : List (α × α)} (h : Acyclic edges)
    (hedges : ∀ a b, Edge edges' a b → Edge edges a b ∨ a = s ∧ b = t)
    (hreach : ¬ ReflTransGen (Edge edges) t s) : Acyclic edges' := by
  intro a hcycle
  obtain hcycle | ⟨hs, ht⟩ := insert_cases hedges hcycle
  · exact h a hcycle
  · exact hreach (ht.trans hs)

/-! ## the search -/

/-- what was visited leads to what was visited or is on the stack -/
def Closed (edges : List (α × α)) (stack visited : List α) : Prop :=
  ∀ a ∈ visited, ∀ b, Edge edges a b → b ∈ visited ∨ b ∈ stack

theorem Closed.leaves (h : Closed edges stack visited) (hgoal : goal ∉ visited) (ha : a ∈ visited)
    (hreach : ReflTransGen (Edge edges) a goal) :
    ∃ b ∈ stack, ReflTransGen (Edge edges) b goal := by
  induction hreach using ReflTransGen.head_induction_on with
  | refl => exact absurd ha hgoal
  | head hedge hrest ih =>
    obtain hvisited | hstack := h _ ha _ hedge
    · exact ih hvisited
    · exact ⟨_, hstack, hrest⟩

variable [DecidableEq α]

def targets (edges : List (α × α)) (node : α) : List α :=
  (edges.filter fun e => e.1 = node).map (·.2)

/-- the edges that start outside -/
def unseen (edges : List (α × α)) (visited : List α) : List (α × α) :=
  edges.filter fun e => e.1 ∉ visited

theorem unseen_length (h : a ∉ visited) : (unseen edges (a :: visited)).length +
    (targets edges a).length = (unseen edges visited).length := by
  induction edges with
  | nil => rfl
  | cons e edges ih =>
    simp only [unseen, targets, length_map, mem_cons] at ih ⊢
    by_cases ha : e.1 = a
    · have he : e.1 ∉ visited := ha ▸ h
      simp only [filter_cons, ha, true_or, not_true, decide_false, decide_true,
        h, not_false_iff, if_true, length_cons, Bool.false_eq_true, if_false]
      omega
    by_cases hv : e.1 ∈ visited
    · simp only [filter_cons, ha, hv, or_true, not_true, decide_false, Bool.false_eq_true, if_false]
      exact ih
    · simp only [filter_cons, ha, hv, or_false, not_false_iff, decide_true,
        decide_false, if_true, Bool.false_eq_true, if_false, length_cons]
      omega

/-- the node on top of the stack comes next -/
def search (edges : List (α × α)) (goal : α) : List α → List α → Bool
  | [], _ => false
  | node :: stack, visited =>
    if node = goal then true
    else if _h : node ∈ visited then search edges goal stack visited
    else search edges goal ((targets edges node).reverse ++ stack) (node :: visited)
  termination_by stack visited => stack.length + (unseen edges visited).length
  decreasing_by
  · exact Nat.add_lt_add_right (Nat.lt_succ_self _) _
  · have hlength : _ = (unseen edges visited).length := unseen_length _h
    simp only [List.length_append, List.length_reverse, List.length_cons]
    omega

theorem mem_targets : b ∈ targets edges a ↔ Edge edges a b := by
  simp [targets, Edge]

theorem search_iff_stack (h : Closed edges stack visited) (hgoal : goal ∉ visited) :
    search edges goal stack visited ↔ ∃ a ∈ stack, ReflTransGen (Edge edges) a goal := by
  induction stack, visited using search.induct edges goal with
  | case1 => simp [search]
  | case2 stack visited => exact ⟨fun _ => ⟨goal, .head _, .refl⟩, fun _ => by simp [search]⟩
  | case3 node stack visited hne hmem ih =>
    rw [search, if_neg hne, dif_pos hmem]
    have hclosed : Closed edges stack visited := by
      intro a ha b hedge
      obtain hb | hb := h a ha b hedge
      · exact .inl hb
      · obtain rfl | hb := mem_cons.mp hb
        · exact .inl hmem
        · exact .inr hb
    rw [ih hclosed hgoal]
    constructor
    · rintro ⟨a, ha, hreach⟩
      exact ⟨a, .tail _ ha, hreach⟩
    rintro ⟨a, ha, hreach⟩
    obtain rfl | ha := mem_cons.mp ha
    · exact hclosed.leaves hgoal hmem hreach
    · exact ⟨a, ha, hreach⟩
  | case4 node stack visited hne hmem ih =>
    rw [search, if_neg hne, dif_neg hmem]
    have hclosed : Closed edges ((targets edges node).reverse ++ stack) (node :: visited) := by
      intro a ha b hedge
      obtain rfl | ha := mem_cons.mp ha
      · exact .inr (mem_append_left _ (mem_reverse.mpr (mem_targets.mpr hedge)))
      obtain hb | hb := h a ha b hedge
      · exact .inl (.tail _ hb)
      · obtain rfl | hb := mem_cons.mp hb
        · exact .inl (.head _)
        · exact .inr (mem_append_right _ hb)
    have hgoal' : goal ∉ node :: visited := by
      rw [mem_cons, not_or]
      exact ⟨Ne.symm hne, hgoal⟩
    rw [ih hclosed hgoal']
    constructor
    · rintro ⟨a, ha, hreach⟩
      obtain ha | ha := mem_append.mp ha
      · exact ⟨node, .head _, .head (mem_targets.mp (mem_reverse.mp ha)) hreach⟩
      · exact ⟨a, .tail _ ha, hreach⟩
    rintro ⟨a, ha, hreach⟩
    obtain rfl | ha := mem_cons.mp ha
    · exact hclosed.leaves hgoal' (.head _) hreach
    · exact ⟨a, mem_append_right _ ha, hreach⟩

theorem search_iff (edges : List (α × α)) (a goal : α) :
    search edges goal [a] [] ↔ ReflTransGen (Edge edges) a goal := by
  rw [search_iff_stack (nofun) not_mem_nil]
  simp

end DepthFirst
