import Mathlib.Data.List.Infix

/-!
# The retained window of a chunked stream

A stream of symbols arrives in chunks; the window keeps the last chunks, the number of symbols
in them and the position in the stream at which they start.  The front is dropped in whole
chunks.
-/

structure ChunkWindow (β : Type) where
  chunks : List (List β)
  total : Nat
  start : Nat

namespace ChunkWindow
open List
variable {β : Type}

def push (w : ChunkWindow β) (d : List β) : ChunkWindow β :=
  ⟨w.chunks ++ [d], w.total + d.length, w.start⟩

/-- drop chunks from the front while `cond front total start` -/
def popLoop (cond : List β → Nat → Nat → Bool) : List (List β) → Nat → Nat → ChunkWindow β
  | [], total, start => ⟨[], total, start⟩
  | front :: rest, total, start =>
    if cond front total start then
      popLoop cond rest (total - front.length) (start + front.length)
    else ⟨front :: rest, total, start⟩

def popWhile (cond : List β → Nat → Nat → Bool) (w : ChunkWindow β) : ChunkWindow β :=
  popLoop cond w.chunks w.total w.start

/-- the window holds exactly the part of the stream that starts at `start` -/
structure IsWindow (st : List β) (w : ChunkWindow β) : Prop where
  start_le : w.start ≤ st.length
  flatten : w.chunks.flatten = st.drop w.start
  total : w.total = w.chunks.flatten.length

theorem IsWindow.empty : IsWindow ([] : List β) ⟨[], 0, 0⟩ := ⟨Nat.le_refl _, rfl, rfl⟩

theorem IsWindow.total_eq {st : List β} {w : ChunkWindow β} (h : IsWindow st w) :
    w.total = st.length - w.start := by
  rw [h.total, h.flatten, length_drop]

theorem IsWindow.push {st : List β} {w : ChunkWindow β} (h : IsWindow st w) (d : List β) :
    IsWindow (st ++ d) (w.push d) := by
  refine ⟨?_, ?_, ?_⟩
  · show w.start ≤ (st ++ d).length
    rw [length_append]
    exact Nat.le_add_right_of_le h.start_le
  · show (w.chunks ++ [d]).flatten = (st ++ d).drop w.start
    rw [flatten_append, h.flatten, drop_append_of_le_length h.start_le]
    simp
  · show w.total + d.length = (w.chunks ++ [d]).flatten.length
    rw [h.total]
    simp

/-! ## dropping from the front -/

section
variable (cond : List β → Nat → Nat → Bool)

theorem popLoop_cons (front : List β) (rest : List (List β)) (total start : Nat) :
    popLoop cond (front :: rest) total start =
      if cond front total start then
        popLoop cond rest (total - front.length) (start + front.length)
      else ⟨front :: rest, total, start⟩ := rfl

theorem popLoop_induct {I : ChunkWindow β → Prop}
    (hstep : ∀ front rest total start, cond front total start = true →
      I ⟨front :: rest, total, start⟩ → I ⟨rest, total - front.length, start + front.length⟩) :
    ∀ (chunks : List (List β)) (total start : Nat),
      I ⟨chunks, total, start⟩ → I (popLoop cond chunks total start) := by
  intro chunks
  induction chunks with
  | nil => intro total start h; exact h
  | cons front rest ih =>
    intro total start h
    rw [popLoop_cons]
    by_cases hc : cond front total start = true
    · rw [if_pos hc]
      exact ih _ _ (hstep front rest total start hc h)
    · rw [if_neg hc]
      exact h

theorem popLoop_stop : ∀ (chunks : List (List β)) (total start : Nat),
    (popLoop cond chunks total start).chunks = [] ∨
      ∃ front rest, (popLoop cond chunks total start).chunks = front :: rest ∧
        cond front (popLoop cond chunks total start).total
          (popLoop cond chunks total start).start = false := by
  intro chunks
  induction chunks with
  | nil => intro total start; exact .inl rfl
  | cons front rest ih =>
    intro total start
    rw [popLoop_cons]
    by_cases hc : cond front total start = true
    · rw [if_pos hc]
      exact ih _ _
    · rw [if_neg hc]
      exact .inr ⟨front, rest, rfl, Bool.eq_false_iff.mpr hc⟩

theorem IsWindow.tail {st : List β} {front : List β} {rest : List (List β)} {total start : Nat}
    (h : IsWindow st ⟨front :: rest, total, start⟩) :
    IsWindow st ⟨rest, total - front.length, start + front.length⟩ := by
  have hfl : front ++ rest.flatten = st.drop start := h.flatten
  have hlen : front.length + rest.flatten.length = st.length - start := by
    rw [← length_append, hfl, length_drop]
  have hstart : start ≤ st.length := h.start_le
  have htotal : total = front.length + rest.flatten.length := by
    have := h.total
    simpa using this
  refine ⟨?_, ?_, ?_⟩
  · show start + front.length ≤ st.length
    omega
  · show rest.flatten = st.drop (start + front.length)
    rw [← drop_drop, ← hfl, drop_left]
  · show total - front.length = rest.flatten.length
    omega

theorem IsWindow.popWhile {st : List β} {w : ChunkWindow β} (h : IsWindow st w) :
    IsWindow st (w.popWhile cond) :=
  popLoop_induct cond (I := IsWindow st) (fun _ _ _ _ _ h => h.tail) w.chunks w.total w.start h

theorem start_le_popWhile (w : ChunkWindow β) : w.start ≤ (w.popWhile cond).start :=
  popLoop_induct cond (I := fun w' => w.start ≤ w'.start)
    (fun _ _ _ _ _ h => Nat.le_add_right_of_le h) w.chunks w.total w.start (Nat.le_refl _)

theorem popWhile_total_le (w : ChunkWindow β) : (w.popWhile cond).total ≤ w.total :=
  popLoop_induct cond (I := fun w' => w'.total ≤ w.total)
    (fun _ _ _ _ _ h => Nat.le_trans (Nat.sub_le _ _) h) w.chunks w.total w.start (Nat.le_refl _)

end

/-! ## bounds -/

/-- the positions at which a chunk starts or ends -/
def boundsFrom (start : Nat) : List (List β) → List Nat
  | [] => [start]
  | c :: cs => start :: boundsFrom (start + c.length) cs

def bounds (w : ChunkWindow β) : List Nat := boundsFrom w.start w.chunks

theorem boundsFrom_cons (start : Nat) (c : List β) (cs : List (List β)) :
    boundsFrom start (c :: cs) = start :: boundsFrom (start + c.length) cs := rfl

theorem start_mem_boundsFrom (start : Nat) (cs : List (List β)) : start ∈ boundsFrom start cs := by
  cases cs with
  | nil => exact mem_singleton_self _
  | cons c cs => exact mem_cons_self ..

theorem le_of_mem_boundsFrom {start e : Nat} {cs : List (List β)} (h : e ∈ boundsFrom start cs) :
    start ≤ e := by
  induction cs generalizing start with
  | nil => exact Nat.le_of_eq (mem_singleton.mp h).symm
  | cons c cs ih =>
    rcases mem_cons.mp h with h | h
    · exact Nat.le_of_eq h.symm
    · exact Nat.le_trans (Nat.le_add_right _ _) (ih h)

theorem boundsFrom_snoc (start : Nat) (cs : List (List β)) (d : List β) :
    boundsFrom start (cs ++ [d])
      = boundsFrom start cs ++ [start + cs.flatten.length + d.length] := by
  induction cs generalizing start with
  | nil => simp [boundsFrom]
  | cons c cs ih =>
    rw [cons_append, boundsFrom_cons, ih, boundsFrom_cons, flatten_cons,
      length_append, cons_append, Nat.add_assoc start]

/-- **Dropping from the front keeps exactly the bounds from the new start on.** -/
theorem mem_bounds_popWhile (cond : List β → Nat → Nat → Bool) (w : ChunkWindow β) (e : Nat)
    (he : (w.popWhile cond).start ≤ e) : e ∈ (w.popWhile cond).bounds ↔ e ∈ w.bounds := by
  let I : ChunkWindow β → Prop := fun w' => w'.start ≤ e → (e ∈ w'.bounds ↔ e ∈ w.bounds)
  refine popLoop_induct cond (I := I) ?_ w.chunks w.total w.start (fun _ => Iff.rfl) he
  intro front rest total start _ ih hle
  have hle' : start + front.length ≤ e := hle
  have ih' : e ∈ start :: boundsFrom (start + front.length) rest ↔ e ∈ w.bounds :=
    ih (Nat.le_trans (Nat.le_add_right _ _) hle')
  rw [← ih', mem_cons]
  constructor
  · exact .inr
  rintro (rfl | h)
  · have hz : front.length = 0 := by omega
    rw [hz]
    exact start_mem_boundsFrom ..
  · exact h

theorem end_mem_boundsFrom (start : Nat) (cs : List (List β)) :
    start + cs.flatten.length ∈ boundsFrom start cs := by
  induction cs generalizing start with
  | nil => exact mem_singleton_self _
  | cons c cs ih =>
    rw [flatten_cons, length_append, ← Nat.add_assoc]
    exact mem_cons_of_mem _ (ih (start + c.length))

/-- the test "the front chunk ends at or before the anchor" -/
def endsBefore (anchor : Nat) (front : List β) (_total start : Nat) : Bool :=
  start + front.length ≤ anchor

theorem popWhile_endsBefore_le (anchor : Nat) (w : ChunkWindow β) (h : w.start ≤ anchor) :
    (w.popWhile (endsBefore anchor)).start ≤ anchor :=
  popLoop_induct (endsBefore anchor) (I := fun w => w.start ≤ anchor)
    (fun _ _ _ _ hc _ => of_decide_eq_true hc) w.chunks w.total w.start h

/-- **From an anchor on a bound, the window starts exactly at the anchor afterwards.** -/
theorem popWhile_endsBefore_start (anchor : Nat) (w : ChunkWindow β) (h : w.start ≤ anchor)
    (hb : anchor ∈ w.bounds) : (w.popWhile (endsBefore anchor)).start = anchor := by
  have hle := popWhile_endsBefore_le anchor w h
  have hmem := (mem_bounds_popWhile (endsBefore anchor) w anchor hle).mpr hb
  rcases popLoop_stop (endsBefore anchor) w.chunks w.total w.start with hnil | ⟨c, cs, hcs, hc⟩
  · have hnil' : (w.popWhile (endsBefore anchor)).chunks = [] := hnil
    rw [bounds, hnil'] at hmem
    exact (mem_singleton.mp hmem).symm
  have hcs' : (w.popWhile (endsBefore anchor)).chunks = c :: cs := hcs
  have hlt : ¬ (w.popWhile (endsBefore anchor)).start + c.length ≤ anchor := of_decide_eq_false hc
  rw [bounds, hcs', boundsFrom_cons] at hmem
  rcases mem_cons.mp hmem with e | hin
  · exact e.symm
  · exact absurd (le_of_mem_boundsFrom hin) hlt

/-- the chunks that do not end at or before `anchor`, and whether one of them starts before it -/
def concatFrom (anchor : Nat) : Nat → List (List β) → List β × Bool
  | _, [] => ([], false)
  | seq, chunk :: rest =>
    let r := concatFrom anchor (seq + chunk.length) rest
    if seq ≥ anchor then (chunk ++ r.1, r.2)
    else if seq + chunk.length > anchor then (chunk ++ r.1, true)
    else r

theorem concatFrom_cons (anchor seq : Nat) (chunk : List β) (rest : List (List β)) :
    concatFrom anchor seq (chunk :: rest) =
      if seq ≥ anchor then (chunk ++ (concatFrom anchor (seq + chunk.length) rest).1,
        (concatFrom anchor (seq + chunk.length) rest).2)
      else if seq + chunk.length > anchor then
        (chunk ++ (concatFrom anchor (seq + chunk.length) rest).1, true)
      else concatFrom anchor (seq + chunk.length) rest := rfl

section
variable (anchor seq : Nat) (cs : List (List β))
include anchor seq cs

theorem concatFrom_of_le (h : anchor ≤ seq) :
    concatFrom anchor seq cs = (cs.flatten, false) := by
  induction cs generalizing seq with
  | nil => rfl
  | cons c cs ih =>
    rw [concatFrom_cons, if_pos h, ih _ (Nat.le_trans h (Nat.le_add_right _ _)), flatten_cons]

theorem concatFrom_suffix :
    cs.flatten.drop (anchor - seq) <:+ (concatFrom anchor seq cs).1 := by
  induction cs generalizing seq with
  | nil => exact drop_suffix _ _
  | cons c cs ih =>
    rw [concatFrom_cons, flatten_cons]
    by_cases h1 : seq ≥ anchor
    · have h2 : anchor ≤ seq + c.length := by omega
      rw [if_pos h1, concatFrom_of_le _ _ _ h2]
      exact drop_suffix _ _
    rw [if_neg h1]
    by_cases h2 : seq + c.length > anchor
    · rw [if_pos h2, concatFrom_of_le _ _ _ (Nat.le_of_lt h2)]
      exact drop_suffix _ _
    rw [if_neg h2]
    have e : anchor - seq = c.length + (anchor - (seq + c.length)) := by omega
    rw [e, drop_length_add_append]
    exact ih (seq + c.length)

theorem concatFrom_isSuffix :
    (concatFrom anchor seq cs).1 <:+ cs.flatten := by
  induction cs generalizing seq with
  | nil => exact suffix_refl _
  | cons c cs ih =>
    rw [concatFrom_cons, flatten_cons]
    by_cases h1 : seq ≥ anchor
    · have h2 : anchor ≤ seq + c.length := by omega
      rw [if_pos h1, concatFrom_of_le _ _ _ h2]
    rw [if_neg h1]
    by_cases h2 : seq + c.length > anchor
    · rw [if_pos h2, concatFrom_of_le _ _ _ (Nat.le_of_lt h2)]
    · rw [if_neg h2]
      exact (ih (seq + c.length)).trans (suffix_append _ _)

theorem concatFrom_cut (hlo : seq ≤ anchor) (hhi : anchor ≤ seq + cs.flatten.length) :
    (concatFrom anchor seq cs).2 = true ↔ anchor ∉ boundsFrom seq cs := by
  induction cs generalizing seq with
  | nil =>
    have e : anchor = seq := by
      rw [flatten_nil, length_nil] at hhi
      omega
    subst e
    simp [concatFrom, boundsFrom]
  | cons c cs ih =>
    rw [flatten_cons, length_append] at hhi
    rw [concatFrom_cons, boundsFrom_cons, mem_cons, not_or]
    by_cases h1 : seq ≥ anchor
    · have e : anchor = seq := by omega
      rw [if_pos h1, concatFrom_of_le _ _ _ (by omega)]
      simp [e]
    rw [if_neg h1]
    have hne : anchor ≠ seq := by omega
    by_cases h2 : seq + c.length > anchor
    · rw [if_pos h2]
      have hnot : anchor ∉ boundsFrom (seq + c.length) cs := fun hm => by
        have := le_of_mem_boundsFrom hm
        omega
      exact ⟨fun _ => ⟨hne, hnot⟩, fun _ => rfl⟩
    · rw [if_neg h2, ih (seq + c.length) (by omega) (by omega)]
      exact ⟨fun h => ⟨hne, h⟩, fun h => h.2⟩

end

end ChunkWindow
