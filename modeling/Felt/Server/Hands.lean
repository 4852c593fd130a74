import Felt.Server.Effect

/-!
# Hands

Who holds what is stored twice, in `held` of the player and in `held_by` of
the item, and the two are written one after the other. `Hands` says that they
agree. Five methods write them, always both and always with each other's
values: into an empty hand goes an item that nobody holds, and what is let go
is what is held.

Since both fields are written by one method the relation breaks only in the
middle of it. That it does not matter what else has changed is `Hands.same`:
positions, children and ids are no part of it.
-/

namespace Felt

namespace Server

variable {α : Type}

/-- **Hands are consistent.** -/
structure Hands (g : Game α) : Prop where
  /-- A player holds an item exactly when the item is held by them. -/
  held_iff : ∀ p e, (g.people p).held = some e ↔ (g.entities e).heldBy = some p
  /-- Both of them were made. -/
  made : ∀ p e, (g.people p).held = some e → p < g.nextPlayer ∧ e < g.nextEntity

section Hands

variable {g g' : Game α}

/-- What was made after these is in nobody's hand. -/
theorem Hands.heldBy_of_le (h : Hands g) {e : ℕ} (he : g.nextEntity ≤ e) :
    (g.entities e).heldBy = none := by
  rcases hp : (g.entities e).heldBy with _ | p
  · rfl
  · exact absurd (h.made p e ((h.held_iff p e).mpr hp)).2 (by omega)

theorem Hands.held_of_le (h : Hands g) {p : ℕ} (hp : g.nextPlayer ≤ p) :
    (g.people p).held = none := by
  rcases he : (g.people p).held with _ | e
  · rfl
  · exact absurd (h.made p e he).1 (by omega)

/-- A game in which the same is held is consistent too. -/
theorem Hands.same (h : Hands g) (hheld : ∀ p, (g'.people p).held = (g.people p).held)
    (hby : ∀ e, (g'.entities e).heldBy = (g.entities e).heldBy)
    (hplayers : g.nextPlayer ≤ g'.nextPlayer) (hentities : g.nextEntity ≤ g'.nextEntity) :
    Hands g' where
  held_iff p e := by
    rw [hheld, hby]
    exact h.held_iff p e
  made p e he := by
    rw [hheld] at he
    have := h.made p e he
    omega

/-- **Taking an item that nobody holds into an empty hand.** -/
theorem Hands.grabbed (h : Hands g) {p e : ℕ} (hp : p < g.nextPlayer) (he : e < g.nextEntity)
    (hempty : (g.people p).held = none) (hfree : (g.entities e).heldBy = none) :
    Hands (g.grabbed p e) where
  held_iff q i := by
    rw [grabbed_people, grabbed_entities]
    unfold changeAt
    split_ifs with hq hi hi
    · rw [hq, hi]
      exact iff_of_true rfl rfl
    · refine iff_of_false (fun h' => hi (Option.some.inj h').symm) (fun h' => ?_)
      rw [← h.held_iff, hq, hempty] at h'
      cases h'
    · refine iff_of_false (fun h' => ?_) (fun h' => hq (Option.some.inj h').symm)
      rw [h.held_iff, hi, hfree] at h'
      cases h'
    · exact h.held_iff q i
  made q i hi := by
    rw [grabbed_people] at hi
    split_ifs at hi with hq
    · rw [hq, ← Option.some.inj hi]
      exact ⟨hp, he⟩
    · exact h.made q i hi

/-- **Letting an item go.** -/
theorem Hands.released (h : Hands g) {p e : ℕ} (hheld : (g.people p).held = some e) :
    Hands (g.released p e) where
  held_iff q i := by
    rw [released_people, released_entities]
    unfold changeAt
    split_ifs with hq hi hi
    · exact iff_of_false nofun nofun
    · refine iff_of_false nofun (fun h' => hi ?_)
      rw [← h.held_iff, hq, hheld] at h'
      exact (Option.some.inj h').symm
    · refine iff_of_false (fun h' => hq ?_) nofun
      rw [h.held_iff, hi, (h.held_iff p e).mp hheld] at h'
      exact (Option.some.inj h').symm
    · exact h.held_iff q i
  made q i hi := by
    rw [released_people] at hi
    split_ifs at hi with hq
    exact h.made q i hi

end Hands

end Server

end Felt
