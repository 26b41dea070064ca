/-!
# Versioned snapshots of a source

A source has a version and contents, and publishes snapshots of both.  A receiver is handed the
snapshots in any order, any number of times, and keeps one unless an older one arrives.  If the
contents never change without a new version, the receiver ends with what the source holds.
-/

namespace NewestVersion
open List

variable {σ γ : Type} {version : σ → Nat} {contents : σ → γ}

def keepNewest (version : σ → Nat) (current : Option σ) (s : σ) : Option σ :=
  match current with
  | none => some s
  | some c => if version s < version c then some c else some s

def receiveAll (version : σ → Nat) (current : Option σ) (delivered : List σ) : Option σ :=
  delivered.foldl (keepNewest version) current

theorem receiveAll_some (version : σ → Nat) (c : σ) (delivered : List σ) :
    ∃ s, receiveAll version (some c) delivered = some s ∧ (s = c ∨ s ∈ delivered) ∧
      version c ≤ version s ∧ ∀ s' ∈ delivered, version s' ≤ version s := by
  induction delivered generalizing c with
  | nil => exact ⟨c, rfl, .inl rfl, Nat.le_refl _, nofun⟩
  | cons a rest ih =>
    by_cases hlt : version a < version c
    · have hkeep : keepNewest version (some c) a = some c := if_pos hlt
      obtain ⟨s, hs, hmem, hc, hle⟩ := ih c
      refine ⟨s, ?_, hmem.imp id (mem_cons_of_mem a), hc, fun s' hs' => ?_⟩
      · show receiveAll version (keepNewest version (some c) a) rest = some s
        rw [hkeep, hs]
      · rcases mem_cons.mp hs' with rfl | hs'
        · omega
        · exact hle s' hs'
    have htake : keepNewest version (some c) a = some a := if_neg hlt
    obtain ⟨s, hs, hmem, ha, hle⟩ := ih a
    refine ⟨s, ?_, .inr ?_, by omega, fun s' hs' => ?_⟩
    · show receiveAll version (keepNewest version (some c) a) rest = some s
      rw [htake, hs]
    · rcases hmem with rfl | hmem
      · exact mem_cons_self
      · exact mem_cons_of_mem a hmem
    · rcases mem_cons.mp hs' with rfl | hs'
      · exact ha
      · exact hle s' hs'

theorem receiveAll_newest (version : σ → Nat) {delivered : List σ} (h : delivered ≠ []) :
    ∃ s ∈ delivered, receiveAll version none delivered = some s ∧
      ∀ s' ∈ delivered, version s' ≤ version s := by
  cases delivered with
  | nil => exact absurd rfl h
  | cons a rest =>
    obtain ⟨s, hs, hmem, ha, hle⟩ := receiveAll_some version a rest
    refine ⟨s, ?_, hs, fun s' hs' => ?_⟩
    · rcases hmem with rfl | hmem
      · exact mem_cons_self
      · exact mem_cons_of_mem a hmem
    · rcases mem_cons.mp hs' with rfl | hs'
      · exact ha
      · exact hle s' hs'

/-- no published snapshot is ahead of the source, and those of its version have its contents -/
structure Agrees (version : σ → Nat) (contents : σ → γ) (v : Nat) (c : γ)
    (published : List σ) : Prop where
  bound : ∀ s ∈ published, version s ≤ v
  latest : ∀ s ∈ published, version s = v → contents s = c

section
variable {v v' : Nat} {c c' : γ} {published : List σ}

theorem Agrees.nil (v : Nat) (c : γ) : Agrees version contents v c [] :=
  ⟨nofun, nofun⟩

theorem Agrees.advance (h : Agrees version contents v c published) (hv : v ≤ v')
    (hc : c' ≠ c → v < v') : Agrees version contents v' c' published := by
  refine ⟨fun s hs => Nat.le_trans (h.bound s hs) hv, fun s hs hver => ?_⟩
  have hbound := h.bound s hs
  have heq : c' = c := Classical.byContradiction fun hne => by
    have := hc hne
    omega
  rw [heq]
  exact h.latest s hs (by omega)

theorem Agrees.publish (h : Agrees version contents v c published) {s : σ}
    (hver : version s = v) (hcon : contents s = c) :
    Agrees version contents v c (published ++ [s]) := by
  refine ⟨fun s' hs' => ?_, fun s' hs' hver' => ?_⟩
  · rcases mem_append.mp hs' with hs' | hs'
    · exact h.bound s' hs'
    · obtain rfl := mem_singleton.mp hs'
      exact Nat.le_of_eq hver
  rcases mem_append.mp hs' with hs' | hs'
  · exact h.latest s' hs' hver'
  · rw [mem_singleton.mp hs']
    exact hcon

/-- **Convergence**: once a snapshot of the source's version is published, whoever is handed the
published snapshots ends with the contents of the source. -/
theorem Agrees.converges (h : Agrees version contents v c published) {delivered : List σ}
    (hsame : ∀ s, s ∈ delivered ↔ s ∈ published) (hpub : ∃ s ∈ published, version s = v) :
    ∃ s, receiveAll version none delivered = some s ∧ contents s = c := by
  obtain ⟨s₀, hs₀, hver₀⟩ := hpub
  have hmem₀ : s₀ ∈ delivered := (hsame s₀).mpr hs₀
  obtain ⟨s, hs, hdel, hle⟩ := receiveAll_newest version (ne_nil_of_mem hmem₀)
  have hpublished : s ∈ published := (hsame s).mp hs
  have hbound := h.bound s hpublished
  have hle₀ := hle s₀ hmem₀
  exact ⟨s, hdel, h.latest s hpublished (by omega)⟩

end

end NewestVersion
