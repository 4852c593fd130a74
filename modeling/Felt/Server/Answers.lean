import Felt.Server.Custody

/-!
# When a request is granted

What a player asks of an entity is done, or nothing comes of it; or the method
raises, and the player's connection is closed. It raises in five cases: the
class has no such method; something is dropped on a pile with an empty hand –
the pile looks for what was dropped among its children, and there is nothing;
something is dropped on a chess piece that stands nowhere; an item is taken
from a pile that has no class of items; a box is opened that stands nowhere, or
that belongs to no game there is. `act_ok_iff` says that there is no sixth.

The five conditions are about the state before the request, and none of them is
about what the method computes. `Fit` (`Felt.Server.Deed`) has more of them, as a
request may come from a guest or without coordinates; for a player who gives
coordinates they come to these. That each of them is needed is shown by going
through the method until it raises.
-/

namespace Felt

namespace Server

variable {α : Type} {P : Policy} {L : Dict.Length Obj} {g : Game α}

/-- **Whether an entity answers a request** of a player's, who gives
coordinates. -/
structure Answers (g : Game α) (e : ℕ) (method : Method) (p : ℕ) : Prop where
  /-- The class has the method. -/
  action : method ∈ (g.entities e).kind.actions
  /-- What is dropped on a pile is there. -/
  hand : method = .drop → (g.entities e).kind = .pile → (g.people p).held ≠ none
  /-- A chess piece that something is dropped on stands somewhere. -/
  parent : method = .drop → (g.entities e).kind = .chessPiece → (g.entities e).parent ≠ none
  /-- What is taken from a pile has a class. -/
  item : method = .takeItem → (g.entities e).count.isPositive = true → (g.entities e).item ≠ none
  /-- A box that is not open stands somewhere, and is one there is. -/
  box : method = .openBox → (g.entities e).opened = false →
    (g.entities e).parent ≠ none ∧ ∃ name, (g.entities e).game = some name ∧
      (name ∈ g.loaded ∨ name = bytes "chess" ∨ name = bytes "go")

theorem Answers.fit {e p : ℕ} {method : Method} (h : Answers g e method p) (x y : ℚ) :
    Fit g e method (some p) (some x) (some y) where
  action := h.action
  asked := nofun
  coordinates _ _ := ⟨nofun, nofun⟩
  parent := h.parent
  hand hm hk _ hq := Option.some.inj hq ▸ h.hand hm hk
  item := h.item
  box := h.box

/-! ## What raises -/

/-- A chess piece that stands nowhere. -/
theorem Piece.drop_raises {e : ℕ} (hparent : (g.entities e).parent = none) (who : Option ℕ)
    (x y : Option ℚ) (u : Unit) (g' : Game α) : Piece.drop e who x y g ≠ .ok u g' := by
  intro h
  rw [Piece.drop, Run.get_bind, hparent] at h
  cases h

/-- A pile that an empty hand is held out to, and that nothing stands on. -/
theorem Pile.drop_raises {e p : ℕ} (hheld : (g.people p).held = none)
    (hchildren : (g.entities e).children = []) (fuel : ℕ) (x y : Option ℚ) (u : Unit)
    (g' : Game α) : Pile.drop fuel e (some p) x y g ≠ .ok u g' := by
  intro h
  have hrefuses : Pile.refuses g e p = false := by
    unfold Pile.refuses
    rw [hheld]
  change (if Pile.refuses g e p = true then _ else _ : Action α Unit) g = _ at h
  rw [hrefuses, if_neg Bool.false_ne_true, Run.bind_of_ok (Board.drop_empty hheld e x y),
    Run.get_bind, hchildren] at h
  cases h

/-- A pile that has items of no class. -/
theorem Pile.takeItem_raises {e : ℕ} (hcount : (g.entities e).count.isPositive = true)
    (hitem : (g.entities e).item = none) (who : Option ℕ) (u : Unit) (g' : Game α) :
    Pile.takeItem L e who g ≠ .ok u g' := by
  intro h
  rw [Pile.takeItem, Run.get_bind, if_pos hcount, hitem] at h
  cases h

/-- A box that stands nowhere, or that belongs to no game there is. -/
theorem GameBox.openBox_box (h : Sound Kind.Below g) {e : ℕ} (he : g.Listed (.entity e))
    (hopened : (g.entities e).opened = false) {u : Unit} {g' : Game α}
    (hok : GameBox.openBox L e g = .ok u g') :
    (g.entities e).parent ≠ none ∧ ∃ name, (g.entities e).game = some name ∧
      (name ∈ g.loaded ∨ name = bytes "chess" ∨ name = bytes "go") := by
  rw [GameBox.openBox, Run.get_bind, hopened, if_neg Bool.false_ne_true] at hok
  rcases hgame : (g.entities e).game with _ | name
  · rw [hgame] at hok
    cases hok
  rw [hgame, Run.bind_of_ok (Run.assertSome_some _ _ _)] at hok
  have hbuild : Building Policy.shipped L g g := .start h (fun _ _ => trivial)
  rcases openGame_ends (hosts_of_below rfl) hbuild name (fun _ _ => trivial) with
    ⟨_, t, ht, hb⟩ | ⟨err, t, ht, -⟩
  · refine ⟨fun hparent => ?_, name, rfl, ?_⟩
    · -- the script has left the box where it was
      rw [Run.bind_of_ok ht, Run.modify_bind, Run.get_bind] at hok
      have hnone : ((t.mapEntity e (fun v => { v with opened := true })).entities e).parent
          = none := by
        rw [mapEntity_eq, ← hparent, ← hb.old e (h.entity e he)]
        refine changeAt_field Entity.parent ?_ _ _ _
        exact fun _ => rfl
      rw [hnone] at hok
      cases hok
    · by_contra hno
      rw [not_or, not_or] at hno
      rw [openGame, Run.get_bind, if_neg hno.1, boxScript, if_neg hno.2.1, if_neg hno.2.2] at ht
      cases ht
  · rw [Run.bind_of_error ht] at hok
    cases hok

/-! ## What is granted -/

/-- **A request is granted exactly when the entity answers it.** -/
theorem act_ok_iff (h : Sound Kind.Below g) {e p : ℕ} (he : g.Listed (.entity e))
    (hp : p < g.nextPlayer) (fuel : ℕ) (method : Method) (x y : ℚ) :
    (∃ g', act L (fuel + 1) e method (some p) (some x) (some y) g = .ok () g')
      ↔ Answers g e method p := by
  constructor
  · rintro ⟨g', hok⟩
    have haction : method ∈ (g.entities e).kind.actions := by
      by_contra hno
      rw [act, Run.get_bind] at hok
      simp only [if_neg hno] at hok
      cases hok
    rw [act, Run.get_bind] at hok
    simp only [if_pos haction] at hok
    refine ⟨haction, ?_, ?_, ?_, ?_⟩
    · rintro rfl hkind hheld
      have hnil : (g.entities e).children = [] :=
        h.children_nil (hkind ▸ (bare_of_below (P := Policy.shipped) rfl).pile)
      rw [if_neg (by rw [hkind]; decide), if_pos hkind] at hok
      exact Pile.drop_raises hheld hnil _ _ _ () g' hok
    · rintro rfl hkind hparent
      rw [if_pos hkind] at hok
      exact Piece.drop_raises hparent _ _ _ () g' hok
    · rintro rfl hcount hitem
      exact Pile.takeItem_raises hcount hitem _ () g' hok
    · rintro rfl hopened
      exact GameBox.openBox_box h he hopened hok
  -- a request that is fit does not raise, and one that is answered is fit
  · intro hanswers
    have hasker : Asker Policy.shipped g (some p) :=
      ⟨fun q hq => Option.some.inj hq ▸ hp, fun _ _ => trivial⟩
    have hallows : Allows Policy.shipped L g e method (some p) :=
      ⟨fun _ _ _ _ _ => ⟨trivial, bare_of_below rfl⟩, fun _ _ _ => ⟨trivial, Or.inr trivial⟩,
        fun _ _ _ _ _ _ => ⟨fun _ => trivial, fun _ => ⟨trivial, fun _ _ => trivial⟩⟩⟩
    rcases act_ends (P := Policy.shipped) (L := L) (hosts_of_below rfl) h he hasker hallows fuel
      (some x) (some y) with ⟨_, g', hg', -⟩ | ⟨_, _, -, -, -, hunfit⟩
    · exact ⟨g', hg'⟩
    · exact absurd (hanswers.fit x y) hunfit

end Server

end Felt
