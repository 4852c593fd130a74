import Felt.Server.Custody
import Felt.Server.Grid

/-!
# Capturing

What is dropped on a chess piece goes to the board the piece stands on, at the
point under the click; the piece is then picked up by whoever dropped. On a
square that swaps the two: the drop is snapped to the square of the piece, and
the hand is empty when the piece is picked up – unless somebody else has the
piece in their hand already.

Whoever holds the piece on the square, and wherever the piece in the hand was, the
outcome is given for each entity and each player: the two pieces, the lists they
leave and join, the hands, and that nothing else has changed. The two cases at the
end are whether the piece on the square is in somebody's hand.
-/

namespace Felt

namespace Server

variable {α : Type}

/-- The grid of the chessboard. -/
def chessGrid : Grid := ⟨10, 10, 45, 45, some 8, some 8, true⟩

/-- The corner of a square of the chessboard. -/
def square (i : ℕ) : ℚ := 10 + 45 * i

/-- **A click on a square is snapped to it.** -/
theorem snap_square {r c : ℕ} (hr : r < 8) (hc : c < 8) {x y : ℚ} (hx : 0 ≤ x ∧ x < 45)
    (hy : 0 ≤ y ∧ y < 45) (item : Entity) :
    chessGrid.snap item (x + square r) (y + square c)
      = (square r + (45 - item.w) / 2, square c + (45 - item.h) / 2) := by
  have hcell : ∀ (i : ℕ) {z : ℚ}, 0 ≤ z ∧ z < 45 → cell 10 45 (z + square i) = i := fun i z hz => by
    have h := cell_corner (o := 10) (n := i) (by norm_num) hz.1 hz.2
    rw [← h]
    unfold square
    push_cast
    ring_nf
  have hrow : chessGrid.row (x + square r) = r := hcell r hx
  have hcol : chessGrid.col (y + square c) = c := hcell c hy
  have hsnaps : chessGrid.Snaps (x + square r) (y + square c) := by
    unfold Grid.Snaps
    rw [hrow, hcol]
    refine ⟨fun n hn => ?_, fun n hn => ?_⟩
    all_goals
      obtain rfl := Option.some.inj hn
      omega
  rw [Grid.snap_of_snaps hsnaps, hrow, hcol]
  show ((r : ℤ) * 45 + 10 + (45 - item.w) / 2, (c : ℤ) * 45 + 10 + (45 - item.h) / 2) = _
  unfold square
  push_cast
  rw [add_comm (10 : ℚ), mul_comm (45 : ℚ), add_comm (10 : ℚ), mul_comm (45 : ℚ)]

/-- **The held entity `h` and the piece `q` have been swapped** on the board
`b`, by the player `p`. -/
structure Captured (g : Game α) (b q h p : ℕ) (g' : Game α) : Prop where
  /-- `h` stands on the board. -/
  parent : (g'.entities h).parent = some b
  /-- The board has it among its children. -/
  child : h ∈ (g'.entities b).children
  /-- It is held by nobody. -/
  free : (g'.entities h).heldBy = none ∧ ∀ r, (g'.people r).held ≠ some h
  /-- It is centred on the square. -/
  centred : (g'.entities h).x + (g.entities h).w / 2 = (g.entities q).x + 45 / 2
    ∧ (g'.entities h).y + (g.entities h).h / 2 = (g.entities q).y + 45 / 2
  /-- The piece is in the hand, if nobody held it. -/
  swapped : (g.entities q).heldBy = none →
    (g'.people p).held = some q ∧ (g'.entities q).heldBy = some p
  /-- If somebody held it, they still do, and the hand is empty. -/
  refused : ∀ r, (g.entities q).heldBy = some r →
    (g'.people p).held = none ∧ (g'.entities q).heldBy = some r
  /-- The board has one more child, unless it had `h` already. -/
  joined : (g.entities h).parent ≠ some b →
    (g'.entities b).children = (g.entities b).children ++ [h]
  /-- The entity `h` stood on has one less. -/
  left : ∀ o, (g.entities h).parent = some o → o ≠ b →
    (g'.entities o).children = (g.entities o).children.erase h
  /-- No other entity has changed: what may have is who holds the piece, and
  the children `h` was or is one of. -/
  entity : ∀ e, e ≠ h → ∃ who children,
    g'.entities e = { g.entities e with heldBy := who, children := children }
      ∧ (e ≠ q → who = (g.entities e).heldBy)
      ∧ ((g.entities h).parent = some b ∨ (g.entities h).parent ≠ some e ∧ e ≠ b →
        children = (g.entities e).children)
  /-- Neither has another player, and of this one only the hand. -/
  player : ∀ r, ∃ held, g'.people r = { g.people r with held := held }
    ∧ (r ≠ p → held = (g.people r).held)

section Drop

variable {g : Game α} {b q h p : ℕ}

/-- What an entity has become when `h` has been dropped, if it is not `h`. -/
theorem dropped_of_ne {x y : Option ℚ} {e : ℕ} (he : e ≠ h) :
    (g.dropped p h b x y).entities e = { g.entities e with
      children := movedChildren h (g.entities h).parent (some b) e (g.entities e).children } := by
  show ((g.released p h).entities e).moved h ((g.released p h).entities h).parent (some b) x y e = _
  rw [show ((g.released p h).entities h).parent = (g.entities h).parent from
    congrFun (parents_released p h g) h, released_entities]
  unfold Entity.moved changeAt
  simp only [if_neg he]

/-- What has been dropped is where it was dropped. -/
theorem dropped_self (x y : ℚ) :
    ((g.dropped p h b (some x) (some y)).entities h).x = x
      ∧ ((g.dropped p h b (some x) (some y)).entities h).y = y := by
  constructor
  · show (if h = h then _ else _ : ℚ) = x
    rw [if_pos rfl]
    rfl
  · show (if h = h then _ else _ : ℚ) = y
    rw [if_pos rfl]
    rfl

theorem dropped_people (x y : Option ℚ) (r : ℕ) : (g.dropped p h b x y).people r
    = if r = p then { g.people r with held := none } else g.people r :=
  released_people p h g r

/-- What picking up changes. -/
theorem pickedUp_entities (e : ℕ) : (g.pickedUp p q).entities e
    = changeAt q (fun v => { v with heldBy := some p }) e (g.entities e) := grabbed_entities p q g e

theorem pickedUp_people (r : ℕ) : (g.pickedUp p q).people r
    = if r = p then { g.people r with held := some q } else g.people r := grabbed_people p q g r

/-- **The drop onto the square, and the piece picked up or not.** -/
theorem Piece.drop_apply {x y X Y : ℚ} (hpiece : (g.entities q).parent = some b)
    (hboard : (g.entities b).kind = .chessBoard) (hheld : (g.people p).held = some h) (hb : h ≠ b)
    (hq : h ≠ q) (hplace : chessGrid.snap (g.entities h) (x + (g.entities q).x)
      (y + (g.entities q).y) = (X, Y)) :
    Piece.drop q (some p) (some x) (some y) g = .ok () (match (g.entities q).heldBy with
      | none => (g.dropped p h b (some X) (some Y)).pickedUp p q
      | some _ => g.dropped p h b (some X) (some Y)) := by
  unfold Piece.drop
  rw [Run.get_bind, hpiece, Run.bind_of_ok (Run.assertSome_some _ _ _)]
  show (if (g.entities b).kind = .chessBoard then _ else _ : Action α Unit) g = _
  rw [if_pos hboard, Run.bind_of_ok (Run.assertSome_some _ _ _),
    Run.bind_of_ok (Run.assertSome_some _ _ _)]
  have hdrop := Board.drop_apply b p (x + (g.entities q).x) (y + (g.entities q).y) g
  rw [hheld] at hdrop
  simp only [if_neg hb] at hdrop
  have hxy : (g.entities b).kind.place (g.entities h) (x + (g.entities q).x)
      (y + (g.entities q).y) = (X, Y) := by
    rw [hboard]
    exact hplace
  rw [hxy] at hdrop
  rw [Run.bind_of_ok hdrop, Token.pickup_apply, dropped_of_ne hq.symm, dropped_people, if_pos rfl]
  rcases (g.entities q).heldBy with _ | r <;> rfl

/-- What the drop alone leaves. -/
theorem captured_dropped (hg : Consistent g) (hhands : Hands g) (hheld : (g.people p).held = some h)
    {X Y : ℚ} (hX : X = (g.entities q).x + (45 - (g.entities h).w) / 2)
    (hY : Y = (g.entities q).y + (45 - (g.entities h).h) / 2) (g' : Game α)
    (hne : h ≠ q) (hentity : ∀ e, e ≠ q →
      g'.entities e = (g.dropped p h b (some X) (some Y)).entities e)
    (hpiece : ∃ who, g'.entities q
      = { (g.dropped p h b (some X) (some Y)).entities q with heldBy := who })
    (hpeople : ∀ r, r ≠ p → g'.people r = g.people r)
    (hhand : ∃ held, g'.people p = { g.people p with held := held } ∧ held ≠ some h)
    (hswapped : (g.entities q).heldBy = none →
      (g'.people p).held = some q ∧ (g'.entities q).heldBy = some p)
    (hrefused : ∀ r, (g.entities q).heldBy = some r →
      (g'.people p).held = none ∧ (g'.entities q).heldBy = some r) :
    Captured g b q h p g' := by
  have hchildren : ∀ e, (g'.entities e).children
      = movedChildren h (g.entities h).parent (some b) e (g.entities e).children := fun e => by
    rw [← dropped_children g p h b (some X) (some Y) e]
    by_cases he : e = q
    · obtain ⟨who, hwho⟩ := hpiece
      rw [he, hwho]
    · rw [hentity e he]
  have hself := hentity h hne
  refine ⟨?_, ?_, ⟨?_, fun r hr => ?_⟩, ?_, hswapped, hrefused, fun hnew => ?_, fun o ho hob => ?_,
    fun e he => ?_, fun r => ?_⟩
  · rw [hself, dropped_parent, if_pos rfl]
  · rw [hchildren]
    unfold movedChildren
    by_cases hsame : (g.entities h).parent = some b
    · rw [if_pos hsame]
      exact (hg.child_iff b h).mpr hsame
    · rw [if_neg hsame, if_neg hsame, if_pos rfl]
      exact List.mem_append_right _ (List.mem_singleton_self h)
  · rw [hself, dropped_heldBy, if_pos rfl]
  · -- it was in one hand, which has let it go
    by_cases hrp : r = p
    · obtain ⟨held, hp, hnot⟩ := hhand
      rw [hrp, hp] at hr
      exact hnot hr
    · rw [hpeople r hrp, hhands.held_iff] at hr
      rw [hhands.held_iff, hr] at hheld
      exact hrp (Option.some.inj hheld)
  · obtain ⟨hx, hy⟩ := dropped_self (g := g) (b := b) (h := h) (p := p) X Y
    rw [hself, hx, hy, hX, hY]
    constructor <;> ring
  · rw [hchildren]
    unfold movedChildren
    rw [if_neg hnew, if_neg hnew, if_pos rfl]
  · rw [hchildren]
    unfold movedChildren
    rw [ho, if_neg (fun hs => hob (Option.some.inj hs)), if_pos rfl]
  · have hlist : (g.entities h).parent = some b ∨ (g.entities h).parent ≠ some e ∧ e ≠ b →
        movedChildren h (g.entities h).parent (some b) e (g.entities e).children
          = (g.entities e).children := by
      unfold movedChildren
      rintro (hsame | ⟨hwas, heb⟩)
      · rw [if_pos hsame]
      · rw [if_neg hwas, if_neg (fun hs => heb (Option.some.inj hs).symm), ite_self]
    by_cases heq : e = q
    · obtain ⟨who, hwho⟩ := hpiece
      rw [dropped_of_ne hne.symm] at hwho
      subst heq
      exact ⟨who, _, hwho, fun hn => absurd rfl hn, hlist⟩
    · exact ⟨_, _, (hentity e heq).trans (dropped_of_ne he), fun _ => rfl, hlist⟩
  · by_cases hr : r = p
    · obtain ⟨held, hp, -⟩ := hhand
      exact ⟨held, hr ▸ hp, fun hn => absurd hr hn⟩
    · exact ⟨_, hpeople r hr, fun _ => rfl⟩

/-- On a piece, `drop` is the one of chess. -/
theorem act_drop_piece (hkind : (g.entities q).kind = .chessPiece) (L : Dict.Length Obj) (fuel : ℕ)
    (who : Option ℕ) (x y : Option ℚ) : act L fuel q .drop who x y g = Piece.drop q who x y g := by
  unfold act
  rw [Run.get_bind, hkind]
  rfl

/-- **Capturing swaps the pieces**, whoever holds the piece on the square and
wherever the other one stood. -/
theorem drop_captures (L : Dict.Length Obj) (fuel : ℕ) (g : Game α) (hg : Consistent g)
    (hhands : Hands g) (b q h p r c : ℕ) (x y : ℚ) (hboard : (g.entities b).kind = .chessBoard)
    (hkind : (g.entities q).kind = .chessPiece) (hchild : q ∈ (g.entities b).children)
    (hr : r < 8) (hc : c < 8) (hqx : (g.entities q).x = square r)
    (hqy : (g.entities q).y = square c)
    (hheld : (g.people p).held = some h) (hb : h ≠ b) (hq : h ≠ q) (hx : 0 ≤ x ∧ x < 45)
    (hy : 0 ≤ y ∧ y < 45) :
    ∃ g', act L fuel q .drop (some p) (some x) (some y) g = .ok () g' ∧ Captured g b q h p g' := by
  rw [act_drop_piece hkind]
  have hsnap := snap_square hr hc hx hy (g.entities h)
  rw [← hqx, ← hqy] at hsnap
  have hrun := Piece.drop_apply ((hg.child_iff b q).mp hchild) hboard hheld hb hq hsnap
  refine ⟨_, hrun, ?_⟩
  -- in nobody's hand the piece is picked up, and otherwise it stays where it is held
  rcases hby : (g.entities q).heldBy with _ | s
  · refine captured_dropped hg hhands hheld rfl rfl _ hq (fun e he => ?_) ⟨some p, ?_⟩
      (fun t ht => ?_) ⟨some q, ?_, fun hn => hq (Option.some.inj hn).symm⟩ (fun _ => ⟨?_, ?_⟩)
      (fun t ht => by cases hby.symm.trans ht)
    · show (Game.pickedUp p q _).entities e = _
      rw [pickedUp_entities]
      exact if_neg he
    · show (Game.pickedUp p q _).entities q = _
      rw [pickedUp_entities]
      exact if_pos rfl
    · show (Game.pickedUp p q _).people t = _
      rw [pickedUp_people, if_neg ht, dropped_people, if_neg ht]
    · show (Game.pickedUp p q _).people p = _
      rw [pickedUp_people, if_pos rfl, dropped_people, if_pos rfl]
    · show ((Game.pickedUp p q _).people p).held = _
      rw [pickedUp_people, if_pos rfl]
    · show ((Game.pickedUp p q _).entities q).heldBy = _
      rw [pickedUp_entities]
      exact congrArg Entity.heldBy (if_pos rfl)
  · refine captured_dropped hg hhands hheld rfl rfl _ hq (fun _ _ => rfl)
      ⟨_, rfl⟩ (fun t ht => ?_) ⟨none, ?_, nofun⟩
      (fun hn => by cases hby.symm.trans hn) (fun t ht => ⟨?_, ?_⟩)
    · show (Game.dropped p h b _ _ g).people t = _
      rw [dropped_people, if_neg ht]
    · show (Game.dropped p h b _ _ g).people p = _
      rw [dropped_people, if_pos rfl]
    · show ((Game.dropped p h b _ _ g).people p).held = _
      rw [dropped_people, if_pos rfl]
    · show ((Game.dropped p h b _ _ g).entities q).heldBy = _
      rw [dropped_heldBy, if_neg hq.symm, ht]

/-- A player opens the chess box, takes a white pawn and drops it on a black
one. -/
theorem drop_captures_pawn :
    ∃ (g g' : Game (Box.Point Obj)) (white black : ℕ),
      act Site.plain.length 5 black .drop (some 0) (some 20) (some 20) g = .ok () g'
        ∧ Captured g 3 black white 0 g' := by
  obtain ⟨s, hs, hboard, hkind, hchild, hqx, hqy, hheld⟩ := exists_played
    (fun _ _ => True) Site.plain 5
    (State.opening Site.plain [bytes "chess"])
    [.session (.connect 0 (some [])),
      .session (.login 0 (.string (bytes "a")) .nil .nil .nil .nil),
      .act 0 1 .openBox none none, .act 0 4 .pickup none none]
    (Q := fun s => (s.game.entities 3).kind = .chessBoard ∧ (s.game.entities 20).kind = .chessPiece
      ∧ 20 ∈ (s.game.entities 3).children ∧ (s.game.entities 20).x = square 0
      ∧ (s.game.entities 20).y = square 1 ∧ (s.game.people 0).held = some 4) (by decide +kernel)
  have hsound := ((manned_opening Site.plain _ (hosts_of_below rfl) trivial
    (fun _ => trivial)).played (hosts_of_below rfl) (fun d s _ => may_shipped d s) hs).sound
  obtain ⟨g', hg', hcaptured⟩ := drop_captures Site.plain.length 5 s.game hsound.tree hsound.hands
    3 20 4 0 0 1 20 20 hboard hkind hchild (by decide) (by decide) hqx hqy hheld (by decide)
    (by decide) (by norm_num) (by norm_num)
  exact ⟨s.game, g', 4, 20, hg', hcaptured⟩

end Drop

end Server

end Felt
