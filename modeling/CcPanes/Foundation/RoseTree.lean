/-!
# Trees with labelled leaves and nodes, and places in them
-/

inductive RoseTree (α β : Type) where
  | leaf (a : α)
  | node (b : β) (children : List (RoseTree α β))

namespace RoseTree
open List
variable {α β γ : Type}

mutual
def decEq [DecidableEq α] [DecidableEq β] : (t u : RoseTree α β) → Decidable (t = u)
  | .leaf a, .leaf a' => decidable_of_iff (a = a') (leaf.injEq a a').to_iff.symm
  | .leaf _, .node _ _ => isFalse nofun
  | .node _ _, .leaf _ => isFalse nofun
  | .node b ts, .node b' us =>
    have := decEqAll ts us
    decidable_of_iff (b = b' ∧ ts = us) (node.injEq b ts b' us).to_iff.symm
def decEqAll [DecidableEq α] [DecidableEq β] : (ts us : List (RoseTree α β)) → Decidable (ts = us)
  | [], [] => isTrue rfl
  | [], _ :: _ => isFalse nofun
  | _ :: _, [] => isFalse nofun
  | t :: ts, u :: us =>
    have := decEq t u
    have := decEqAll ts us
    decidable_of_iff (t = u ∧ ts = us) (List.cons.injEq t ts u us).to_iff.symm
end

instance [DecidableEq α] [DecidableEq β] : DecidableEq (RoseTree α β) := decEq

/-! ## what a tree collects -/

mutual
def collect (f : α → List γ) (g : β → List γ) : RoseTree α β → List γ
  | .leaf a => f a
  | .node b children => g b ++ collectAll f g children
def collectAll (f : α → List γ) (g : β → List γ) : List (RoseTree α β) → List γ
  | [] => []
  | t :: ts => collect f g t ++ collectAll f g ts
end

section
variable (f : α → List γ) (g : β → List γ)

theorem collect_leaf (a : α) : collect f g (.leaf a) = f a := by rw [collect]

theorem collect_node (b : β) (ts : List (RoseTree α β)) :
    collect f g (.node b ts) = g b ++ collectAll f g ts := by rw [collect]

theorem collectAll_nil : collectAll f g [] = [] := by rw [collectAll]

theorem collectAll_cons (t : RoseTree α β) (ts : List (RoseTree α β)) :
    collectAll f g (t :: ts) = collect f g t ++ collectAll f g ts := by rw [collectAll]

theorem collectAll_append (ts us : List (RoseTree α β)) :
    collectAll f g (ts ++ us) = collectAll f g ts ++ collectAll f g us := by
  induction ts with
  | nil => rw [collectAll_nil, nil_append, nil_append]
  | cons t ts ih => rw [cons_append, collectAll_cons, collectAll_cons, ih, append_assoc]

end

mutual
theorem collect_eq_flatMap (f : α → List γ) : ∀ t : RoseTree α β,
    collect f (fun _ => []) t = (collect (fun a => [a]) (fun _ => []) t).flatMap f
  | .leaf a => by
    rw [collect_leaf, collect_leaf, flatMap_singleton]
  | .node b ts => by
    exact collectAll_eq_flatMap f ts
theorem collectAll_eq_flatMap (f : α → List γ) : ∀ ts : List (RoseTree α β),
    collectAll f (fun _ => []) ts = (collectAll (fun a => [a]) (fun _ => []) ts).flatMap f
  | [] => by
    rw [collectAll_nil, collectAll_nil, flatMap_nil]
  | t :: ts => by
    rw [collectAll_cons, collectAll_cons, flatMap_append, collect_eq_flatMap f t,
      collectAll_eq_flatMap f ts]
end

mutual
theorem count_leaves_le [BEq γ] (f : α → List γ) (g : β → List γ) (x : γ) : ∀ t : RoseTree α β,
    (collect f (fun _ => []) t).count x ≤ (collect f g t).count x
  | .leaf a => by
    exact Nat.le_of_eq (by rw [collect_leaf, collect_leaf])
  | .node b ts => by
    rw [collect_node, collect_node, nil_append, count_append]
    exact Nat.le_add_left_of_le (countAll_leaves_le f g x ts)
theorem countAll_leaves_le [BEq γ] (f : α → List γ) (g : β → List γ) (x : γ) :
    ∀ ts : List (RoseTree α β),
      (collectAll f (fun _ => []) ts).count x ≤ (collectAll f g ts).count x
  | [] => by
    exact Nat.le_of_eq (by rw [collectAll_nil, collectAll_nil])
  | t :: ts => by
    rw [collectAll_cons, collectAll_cons, count_append, count_append]
    exact Nat.add_le_add (count_leaves_le f g x t) (countAll_leaves_le f g x ts)
end

/-! ## well-formed trees -/

mutual
def Holds (P : α → Prop) (Q : β → Nat → Prop) : RoseTree α β → Prop
  | .leaf a => P a
  | .node b children => Q b children.length ∧ HoldsAll P Q children
def HoldsAll (P : α → Prop) (Q : β → Nat → Prop) : List (RoseTree α β) → Prop
  | [] => True
  | t :: ts => Holds P Q t ∧ HoldsAll P Q ts
end

section
variable (P : α → Prop) (Q : β → Nat → Prop)

theorem holds_leaf (a : α) : Holds P Q (.leaf a) ↔ P a := by rw [Holds]

theorem holds_node (b : β) (ts : List (RoseTree α β)) :
    Holds P Q (.node b ts) ↔ Q b ts.length ∧ HoldsAll P Q ts := by rw [Holds]

theorem holdsAll_nil : HoldsAll P Q [] := by
  trivial

theorem holdsAll_cons (t : RoseTree α β) (ts : List (RoseTree α β)) :
    HoldsAll P Q (t :: ts) ↔ Holds P Q t ∧ HoldsAll P Q ts := by rw [HoldsAll]

theorem holdsAll_append (ts us : List (RoseTree α β)) :
    HoldsAll P Q (ts ++ us) ↔ HoldsAll P Q ts ∧ HoldsAll P Q us := by
  induction ts with
  | nil => exact ⟨fun h => ⟨holdsAll_nil P Q, h⟩, fun h => h.2⟩
  | cons t ts ih => rw [cons_append, holdsAll_cons, holdsAll_cons, ih, and_assoc]

end

def leaves (t : RoseTree α β) : List α := collect (fun a => [a]) (fun _ => []) t

mutual
theorem leaves_ne_nil {P : α → Prop} {Q : β → Nat → Prop} (hQ : ∀ b, ¬ Q b 0) :
    ∀ {t : RoseTree α β}, Holds P Q t → leaves t ≠ []
  | .leaf a, _ => by
    exact cons_ne_nil a []
  | .node b ts, h => by
    have hts : ts ≠ [] := fun hnil => hQ b (by simpa [hnil] using h.1)
    exact leavesAll_ne_nil hQ hts h.2
theorem leavesAll_ne_nil {P : α → Prop} {Q : β → Nat → Prop} (hQ : ∀ b, ¬ Q b 0) :
    ∀ {ts : List (RoseTree α β)}, ts ≠ [] → HoldsAll P Q ts →
      collectAll (fun a => [a]) (fun _ => ([] : List α)) ts ≠ []
  | [], hne, _ => absurd rfl hne
  | t :: ts, _, h => by
    exact fun hnil => leaves_ne_nil hQ h.1 (append_eq_nil_iff.mp hnil).1
end

section
variable {α' β' : Type}

mutual
def map (f : α → α') (g : β → β') : RoseTree α β → RoseTree α' β'
  | .leaf a => .leaf (f a)
  | .node b children => .node (g b) (mapAll f g children)
def mapAll (f : α → α') (g : β → β') : List (RoseTree α β) → List (RoseTree α' β')
  | [] => []
  | t :: ts => map f g t :: mapAll f g ts
end

variable (f : α → α') (g : β → β')

mutual
theorem leaves_map : ∀ t : RoseTree α β, leaves (map f g t) = (leaves t).map f
  | .leaf a => by
    rfl
  | .node b ts => by
    exact leavesAll_map ts
theorem leavesAll_map : ∀ ts : List (RoseTree α β),
    collectAll (fun a => [a]) (fun _ => []) (mapAll f g ts) =
      (collectAll (fun a => [a]) (fun _ => []) ts).map f
  | [] => by
    rfl
  | t :: ts => by
    rw [mapAll, collectAll_cons, collectAll_cons, map_append]
    exact congr (congrArg _ (leaves_map t)) (leavesAll_map ts)
end

end

/-! ## places -/

/-- a node around a place: its label and the children to both sides -/
structure Frame (α β : Type) where
  label : β
  left : List (RoseTree α β)
  right : List (RoseTree α β)

/-- the node with `ts` in the place -/
def Frame.fill (fr : Frame α β) (ts : List (RoseTree α β)) : RoseTree α β :=
  .node fr.label (fr.left ++ ts ++ fr.right)

/-- `t` in the place that the frames describe, the innermost first -/
def plug (t : RoseTree α β) : List (Frame α β) → RoseTree α β
  | [] => t
  | fr :: frs => plug (fr.fill [t]) frs

theorem plug_append (t : RoseTree α β) (frs gs : List (Frame α β)) :
    plug t (frs ++ gs) = plug (plug t frs) gs := by
  induction frs generalizing t with
  | nil => rfl
  | cons fr frs ih => exact ih (fr.fill [t])

mutual
/-- the first subtree that satisfies `p`, and its place -/
def locate (p : RoseTree α β → Bool) : RoseTree α β → Option (RoseTree α β × List (Frame α β))
  | .leaf a => if p (.leaf a) then some (.leaf a, []) else none
  | .node b children =>
    if p (.node b children) then some (.node b children, []) else locateIn p b [] children
def locateIn (p : RoseTree α β → Bool) (b : β) :
    List (RoseTree α β) → List (RoseTree α β) → Option (RoseTree α β × List (Frame α β))
  | _, [] => none
  | left, t :: right =>
    match locate p t with
    | some (found, frs) => some (found, frs ++ [⟨b, left, right⟩])
    | none => locateIn p b (left ++ [t]) right
end

mutual
/-- **What was located, put back** -/
theorem plug_locate {p : RoseTree α β → Bool} : ∀ {t n : RoseTree α β} {frs : List (Frame α β)},
    locate p t = some (n, frs) → plug n frs = t ∧ p n = true
  | .leaf a, n, frs, h => by
    rw [locate] at h
    split at h
    · next hp =>
      cases h
      exact ⟨rfl, hp⟩
    · cases h
  | .node b ts, n, frs, h => by
    rw [locate] at h
    split at h
    · next hp =>
      cases h
      exact ⟨rfl, hp⟩
    · exact plug_locateIn h
theorem plug_locateIn {p : RoseTree α β → Bool} {b : β} : ∀ {left ts : List (RoseTree α β)}
    {n : RoseTree α β} {frs : List (Frame α β)}, locateIn p b left ts = some (n, frs) →
      plug n frs = .node b (left ++ ts) ∧ p n = true
  | left, [], n, frs, h => by
    cases h
  | left, t :: ts, n, frs, h => by
    rw [locateIn] at h
    split at h
    · next found inner hfound =>
      cases h
      obtain ⟨hplug, hp⟩ := plug_locate hfound
      refine ⟨?_, hp⟩
      rw [plug_append, hplug]
      show RoseTree.node b (left ++ [t] ++ ts) = _
      rw [append_assoc, singleton_append]
    · have hin := plug_locateIn h
      rwa [append_assoc, singleton_append] at hin
end

mutual
theorem locate_eq_none {p : RoseTree α β → Bool} {a : α} : ∀ {t : RoseTree α β},
    locate p t = none → a ∈ leaves t → p (.leaf a) = false
  | .leaf b, h, ha => by
    rw [leaves, collect_leaf, mem_singleton] at ha
    rw [locate] at h
    split at h
    · cases h
    · next hp =>
      rw [ha]
      exact Bool.not_eq_true _ ▸ hp
  | .node b ts, h, ha => by
    rw [locate] at h
    split at h
    · cases h
    · exact locateIn_eq_none h ha
theorem locateIn_eq_none {p : RoseTree α β → Bool} {b : β} {a : α} :
    ∀ {left ts : List (RoseTree α β)}, locateIn p b left ts = none →
      a ∈ collectAll (fun a => [a]) (fun _ => []) ts → p (.leaf a) = false
  | left, [], _, ha => by
    cases ha
  | left, t :: ts, h, ha => by
    rw [collectAll_cons, mem_append] at ha
    rw [locateIn] at h
    split at h
    · cases h
    · next hnone => exact ha.elim (locate_eq_none hnone) (locateIn_eq_none h)
end

/-! ## places in a tree with other labels -/

section
variable {α' β' : Type} (f : α → α') (g : β → β')

def mapFrame (fr : Frame α β) : Frame α' β' :=
  ⟨g fr.label, mapAll f g fr.left, mapAll f g fr.right⟩

theorem mapAll_append (ts us : List (RoseTree α β)) :
    mapAll f g (ts ++ us) = mapAll f g ts ++ mapAll f g us := by
  induction ts with
  | nil =>
    rfl
  | cons t ts ih => rw [cons_append, mapAll, mapAll, ih, cons_append]

theorem mapAll_length (ts : List (RoseTree α β)) : (mapAll f g ts).length = ts.length := by
  induction ts with
  | nil =>
    rfl
  | cons t ts ih => rw [mapAll, length_cons, length_cons, ih]

theorem map_plug (t : RoseTree α β) (frs : List (Frame α β)) :
    map f g (plug t frs) = plug (map f g t) (frs.map (mapFrame f g)) := by
  induction frs generalizing t with
  | nil => rfl
  | cons fr frs ih =>
    have hfill : map f g (fr.fill [t]) = (mapFrame f g fr).fill [map f g t] := by
      rw [Frame.fill, map, mapAll_append, mapAll_append, mapAll, mapAll]
      rfl
    rw [plug, ih, hfill]
    rfl

variable {f g}

mutual
theorem locate_map {p : RoseTree α β → Bool} {p' : RoseTree α' β' → Bool}
    (hp : ∀ t, p' (map f g t) = p t) : ∀ t : RoseTree α β, locate p' (map f g t) =
      (locate p t).map fun found => (map f g found.1, found.2.map (mapFrame f g))
  | .leaf a => by
    have ha := hp (.leaf a)
    rw [map] at ha
    rw [map, locate, locate, ha]
    split
    · rw [Option.map_some, map]
      rfl
    · rfl
  | .node b ts => by
    have hb := hp (.node b ts)
    rw [map] at hb
    rw [map, locate, locate, hb]
    split
    · rw [Option.map_some, map]
      rfl
    · exact locateIn_map hp b [] ts
theorem locateIn_map {p : RoseTree α β → Bool} {p' : RoseTree α' β' → Bool}
    (hp : ∀ t, p' (map f g t) = p t) (b : β) : ∀ left ts : List (RoseTree α β),
      locateIn p' (g b) (mapAll f g left) (mapAll f g ts) =
        (locateIn p b left ts).map fun found => (map f g found.1, found.2.map (mapFrame f g))
  | left, [] => by
    rfl
  | left, t :: ts => by
    have ht := locate_map hp t
    have hts := locateIn_map hp b (left ++ [t]) ts
    rw [mapAll_append, mapAll, mapAll] at hts
    rw [mapAll, locateIn, locateIn, ht]
    cases hloc : locate p t with
    | none => exact hts
    | some found =>
      simp only [Option.map_some, map_append, map_singleton]
      rfl
end

mutual
theorem map_self {f : α → α} : ∀ {t : RoseTree α β}, (∀ a ∈ leaves t, f a = a) →
    map f (fun b => b) t = t
  | .leaf a, h => by
    rw [map, h a (by rw [leaves, collect_leaf]; exact mem_singleton.mpr rfl)]
  | .node b ts, h => by
    rw [map, mapAll_self h]
theorem mapAll_self {f : α → α} : ∀ {ts : List (RoseTree α β)},
    (∀ a ∈ collectAll (fun a => [a]) (fun _ => []) ts, f a = a) → mapAll f (fun b => b) ts = ts
  | [], _ => by rw [mapAll]
  | t :: ts, h => by
    rw [mapAll, map_self fun a ha => h a (mem_append_left _ ha),
      mapAll_self fun a ha => h a (mem_append_right _ ha)]
end

end

/-! ## a tree in a place -/

section
variable (f : α → List γ) (g : β → List γ) {frs : List (Frame α β)}

def before : List (Frame α β) → List γ
  | [] => []
  | fr :: frs => before frs ++ (g fr.label ++ collectAll f g fr.left)

def after : List (Frame α β) → List γ
  | [] => []
  | fr :: frs => collectAll f g fr.right ++ after frs

theorem collect_fill (fr : Frame α β) (ts : List (RoseTree α β)) : collect f g (fr.fill ts) =
    g fr.label ++ collectAll f g fr.left ++ (collectAll f g ts ++ collectAll f g fr.right) := by
  rw [Frame.fill, collect_node, collectAll_append, collectAll_append]
  simp only [append_assoc]

theorem collect_plug (t : RoseTree α β) (frs : List (Frame α β)) :
    collect f g (plug t frs) = before f g frs ++ (collect f g t ++ after f g frs) := by
  induction frs generalizing t with
  | nil => rw [before, after, nil_append, append_nil]; rfl
  | cons fr frs ih =>
    have hone : collectAll f g [t] = collect f g t := by
      rw [collectAll_cons, collectAll_nil, append_nil]
    rw [plug, ih, collect_fill, hone, before, after]
    simp only [append_assoc]

variable {f g}

mutual
theorem mem_collect_of_leaf {a : α} {x : γ} (hx : x ∈ f a) :
    ∀ {t : RoseTree α β}, a ∈ leaves t → x ∈ collect f g t
  | .leaf b, h => by
    rw [leaves, collect_leaf, mem_singleton] at h
    rw [collect_leaf, ← h]
    exact hx
  | .node b ts, h => by
    exact mem_append_right _ (mem_collectAll_of_leaf hx h)
theorem mem_collectAll_of_leaf {a : α} {x : γ} (hx : x ∈ f a) :
    ∀ {ts : List (RoseTree α β)}, a ∈ collectAll (fun a => [a]) (fun _ => []) ts →
      x ∈ collectAll f g ts
  | [], h => by
    cases h
  | t :: ts, h => by
    rw [collectAll_cons, mem_append] at h
    rw [collectAll_cons, mem_append]
    exact h.imp (fun h => mem_collect_of_leaf hx h) (fun h => mem_collectAll_of_leaf hx h)
end

theorem mem_before_of_leaf {a : α} {x : γ} (hx : x ∈ f a)
    (h : a ∈ before (fun a => [a]) (fun _ => []) frs) : x ∈ before f g frs := by
  induction frs with
  | nil => cases h
  | cons fr frs ih =>
    rw [before, nil_append, mem_append] at h
    rw [before, mem_append, mem_append]
    exact h.imp ih fun h => .inr (mem_collectAll_of_leaf hx h)

theorem mem_after_of_leaf {a : α} {x : γ} (hx : x ∈ f a)
    (h : a ∈ after (fun a => [a]) (fun _ => []) frs) : x ∈ after f g frs := by
  induction frs with
  | nil => cases h
  | cons fr frs ih =>
    rw [after, mem_append] at h
    rw [after, mem_append]
    exact h.imp (mem_collectAll_of_leaf hx) ih

theorem map_frames_self {f : α → α}
    (hbefore : ∀ a ∈ before (fun a => [a]) (fun _ => []) frs, f a = a)
    (hafter : ∀ a ∈ after (fun a => [a]) (fun _ => []) frs, f a = a) :
    frs.map (mapFrame f fun b => b) = frs := by
  induction frs with
  | nil => rfl
  | cons fr frs ih =>
    have hleft : mapAll f (fun b => b) fr.left = fr.left :=
      mapAll_self fun a ha => hbefore a (mem_append_right _ ha)
    have hright : mapAll f (fun b => b) fr.right = fr.right :=
      mapAll_self fun a ha => hafter a (mem_append_left _ ha)
    rw [map_cons, mapFrame, hleft, hright, ih (fun a ha => hbefore a (mem_append_left _ ha))
        fun a ha => hafter a (mem_append_right _ ha)]

theorem mem_leaves_plug {a b : α} :
    b ∈ leaves (plug (.leaf a) frs) ↔ b = a ∨
      b ∈ before (fun a => [a]) (fun _ => []) frs ∨ b ∈ after (fun a => [a]) (fun _ => []) frs := by
  rw [leaves, collect_plug, collect_leaf, mem_append, mem_append, mem_singleton]
  exact ⟨fun h => h.elim (.inr ∘ .inl) (.imp_right .inr),
    fun h => h.elim (.inr ∘ .inl) (.imp_right .inr)⟩

end

section
variable (P : α → Prop) (Q : β → Nat → Prop)

/-- the rest of the tree around the place is well formed -/
def HoldsAround : List (Frame α β) → Prop
  | [] => True
  | fr :: frs => Q fr.label (fr.left.length + 1 + fr.right.length) ∧
      HoldsAll P Q fr.left ∧ HoldsAll P Q fr.right ∧ HoldsAround frs

theorem holds_fill (fr : Frame α β) (ts : List (RoseTree α β)) : Holds P Q (fr.fill ts) ↔
    Q fr.label (fr.left.length + ts.length + fr.right.length) ∧
      HoldsAll P Q fr.left ∧ HoldsAll P Q ts ∧ HoldsAll P Q fr.right := by
  rw [Frame.fill, holds_node, holdsAll_append, holdsAll_append, length_append,
    length_append, and_assoc]

theorem holds_plug (t : RoseTree α β) (frs : List (Frame α β)) :
    Holds P Q (plug t frs) ↔ Holds P Q t ∧ HoldsAround P Q frs := by
  induction frs generalizing t with
  | nil => exact ⟨fun h => ⟨h, trivial⟩, fun h => h.1⟩
  | cons fr frs ih =>
    have hone : HoldsAll P Q [t] ↔ Holds P Q t := by
      exact ⟨fun h => h.1, fun h => ⟨h, holdsAll_nil P Q⟩⟩
    rw [plug, ih, holds_fill, hone]
    constructor
    · rintro ⟨⟨hq, hl, ht, hr⟩, hrs⟩
      exact ⟨ht, hq, hl, hr, hrs⟩
    · rintro ⟨ht, hq, hl, hr, hrs⟩
      exact ⟨⟨hq, hl, ht, hr⟩, hrs⟩

end

variable [DecidableEq γ]

/-- each element of `l'` is from `l` or from the stock, no more often than they have it -/
def Draws (l' stock l : List γ) : Prop := ∀ x, l'.count x ≤ stock.count x + l.count x

theorem Draws.nodup {l' stock l : List γ} (h : Draws l' stock l) (hl : l.Nodup) (hs : stock.Nodup)
    (hdisj : ∀ x ∈ stock, x ∉ l) : l'.Nodup := by
  rw [nodup_iff_count]
  intro x
  have hx := h x
  have h1 := nodup_iff_count.mp hl x
  have h2 := nodup_iff_count.mp hs x
  by_cases hmem : x ∈ stock
  · rw [count_eq_zero_of_not_mem (hdisj x hmem)] at hx
    omega
  · rw [count_eq_zero_of_not_mem hmem] at hx
    omega

end RoseTree
