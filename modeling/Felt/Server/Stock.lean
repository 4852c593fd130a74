import Felt.Server.Custody

/-!
# Piles

A pile makes an item when one is taken from it, and deletes one when it is
dropped on it; its count goes down and up with that. The books of a pile are
its count and the items of its class that are registered, and no request may
change their sum.

`takeItem` makes the item before it looks at the hand it is to go into, and
lowers the count when all is done. So there is an item too many when the
request is nobody's, and an item in nobody's hand when the hand is full.

Two results are about one request and two about runs. What `takeItem` does is
compared with what it should do, for every state; the condition under which it
does is exact, and fails for a request that is nobody's and for a hand that is
full. In runs, though, the sum of the count and the stones is kept in any case:
the stone that nobody has is counted as taken.
-/

namespace Felt

namespace Server

variable {α : Type} {L : Dict.Length Obj} {g g' : Game α} {self p : ℕ}

/-! ## All or nothing -/

/-- **One item has been taken** by a player, who had nothing in their hand. -/
structure Took (g : Game α) (pile p : ℕ) (g' : Game α) : Prop where
  /-- The hand was empty. -/
  empty : (g.people p).held = none
  /-- Now there is an item in it, and that is the only new object. -/
  item : ∃ item, (g'.people p).held = some item ∧ (g'.entities item).heldBy = some p
    ∧ ¬g.Listed (.entity item) ∧ ∀ o, g'.Listed o ↔ o = .entity item ∨ g.Listed o
  /-- The count is lower by one. -/
  count : (g'.entities pile).count = (g.entities pile).count.add (-1)

/-- **Nothing has been taken.** -/
structure Undisturbed (g g' : Game α) : Prop where
  /-- The counts are the same. -/
  count : ∀ e, (g'.entities e).count = (g.entities e).count
  /-- So are the objects. -/
  objects : ∀ id, g'.objects.get id = g.objects.get id
  /-- And the hands. -/
  held : ∀ q, (g'.people q).held = (g.people q).held
  /-- On both sides. -/
  heldBy : ∀ e, (g'.entities e).heldBy = (g.entities e).heldBy

/-- **All or nothing.** -/
def AllOrNothing (g : Game α) (self : ℕ) (who : Option ℕ) (g' : Game α) : Prop :=
  (∃ p, who = some p ∧ Took g self p g') ∨ Undisturbed g g'

/-- **Something can be taken**, whenever there is something to take: what is
taken is a token, and whoever asks is a player with an empty hand. -/
def CanTake (g : Game α) (self : ℕ) (who : Option ℕ) : Prop :=
  (g.entities self).count.isPositive = true → ∀ k n, (g.entities self).item = some (k, n) →
    k.isToken = true ∧ ∃ p, who = some p ∧ (g.people p).held = none

/-- What is made is registered, so that the objects are not the same. -/
theorem created_objects_ne (L : Dict.Length Obj) (v : Entity) (g : Game α) :
    ¬∀ id, (g.created L v).objects.get id = g.objects.get id := by
  intro h
  have hid := h (L.border g.objects + 1)
  rw [objects_free] at hid
  exact absurd (hid.symm.trans (Dict.get_set_self g.objects _ _)) nofun

/-- A taken item is the player's. -/
theorem took_taken (hmade : ∀ e, g.Listed (.entity e) → e < g.nextEntity)
    (hself : self < g.nextEntity) {k : Kind} {n : Bytes} (hempty : (g.people p).held = none) :
    Took g self p (Game.mapEntity self (fun v => { v with count := v.count.add (-1) })
      (g.taken L (k.entity n) p)) := by
  have hentity : ∀ e, ((g.taken L (k.entity n) p).entities e)
      = changeAt g.nextEntity (fun v => { v with heldBy := some p }) e
        ((g.created L (k.entity n)).entities e) :=
    fun e => grabbed_entities p g.nextEntity (g.created L (k.entity n)) e
  refine ⟨hempty, ⟨g.nextEntity, ?_, ?_, fun hl => lt_irrefl _ (hmade _ hl), fun o => ?_⟩, ?_⟩
  · show ((g.taken L (k.entity n) p).people p).held = _
    rw [show (g.taken L (k.entity n) p).people p = _ from
      grabbed_people p g.nextEntity (g.created L (k.entity n)) p, if_pos rfl]
  · rw [mapEntity_eq]
    show (changeAt self _ g.nextEntity _).heldBy = _
    rw [hentity]
    unfold changeAt
    rw [if_neg hself.ne', if_pos rfl]
  · exact created_listed L (k.entity n) g o
  · rw [mapEntity_eq]
    show (changeAt self _ self _).count = _
    rw [hentity]
    unfold changeAt
    rw [if_pos rfl, if_neg hself.ne, created_of_ne L _ hself.ne]

/-- **Taking an item is all or nothing exactly when something can be taken.**
Otherwise it makes an item that is in nobody's hand. -/
theorem takeItem_allOrNothing_iff (L : Dict.Length Obj) (g : Game α)
    (hmade : ∀ e, g.Listed (.entity e) → e < g.nextEntity) (self : ℕ)
    (hself : g.Listed (.entity self)) (who : Option ℕ) :
    (∃ g', (Pile.takeItem L self who).Leaves g g' ∧ AllOrNothing g self who g')
      ↔ CanTake g self who := by
  have hlt := hmade self hself
  have hrefl : Undisturbed g g := ⟨fun _ => rfl, fun _ => rfl, fun _ => rfl, fun _ => rfl⟩
  by_cases hcount : (g.entities self).count.isPositive = true
  swap
  · refine iff_of_true ⟨g, Or.inl ⟨(), ?_⟩, Or.inr hrefl⟩ (fun h => absurd h hcount)
    show (if (g.entities self).count.isPositive = true then _ else _ : Action α Unit) g = _
    rw [if_neg hcount]
    rfl
  rcases hitem : (g.entities self).item with _ | ⟨k, n⟩
  · refine iff_of_true ⟨g, Or.inr ⟨.refused "call nil", ?_⟩, Or.inr hrefl⟩ (fun _ k n h => ?_)
    · show (if (g.entities self).count.isPositive = true then _ else _ : Action α Unit) g = _
      rw [if_pos hcount, hitem]
      rfl
    · rw [hitem] at h
      cases h
  have hrun := Pile.takeItem_apply L hcount hitem who
  constructor
  · rintro ⟨g', hl, hall⟩ - k' n' hk'
    obtain ⟨rfl, rfl⟩ := Prod.mk.inj (Option.some.inj (hitem.symm.trans hk'))
    -- the hands are as they were, unless something is taken
    have hnot : ∀ {t : Game α}, g' = t → t.people = g.people →
        (∀ id, t.objects.get id = (g.created L (k.entity n)).objects.get id) → False := by
      rintro t rfl hpeople hobjects
      rcases hall with ⟨q, -, htook⟩ | hsame
      · obtain ⟨item, hheld, -⟩ := htook.item
        rw [hpeople, htook.empty] at hheld
        cases hheld
      · exact created_objects_ne L (k.entity n) g
          (fun id => (hobjects id).symm.trans (hsame.objects id))
    by_cases htoken : k.isToken = true
    swap
    · rw [if_neg htoken] at hrun
      exact (hnot (hl.of_error hrun) rfl (fun _ => rfl)).elim
    rw [if_pos htoken] at hrun
    rcases who with _ | p
    · exact (hnot (hl.of_error hrun) rfl (fun _ => rfl)).elim
    rcases hheld : (g.people p).held with _ | item
    · exact ⟨htoken, p, rfl, hheld⟩
    · simp only [hheld] at hrun
      exact (hnot (hl.of_ok hrun) rfl (fun _ => rfl)).elim
  · intro hcan
    obtain ⟨htoken, p, rfl, hempty⟩ := hcan hcount k n hitem
    rw [if_pos htoken] at hrun
    simp only [hempty] at hrun
    exact ⟨_, Or.inl ⟨(), hrun⟩, Or.inl ⟨p, rfl, took_taken hmade hlt hempty⟩⟩

/-- A bowl of stones with the id `1`, and players who hold this. -/
def bowlGame (held : Option ℕ) : Game Empty :=
  { Game.empty with
    entities := fun _ => bowl [] [] 0 0
    people := fun _ => ⟨[], none, held, .nil, .nil, .nil⟩
    nextEntity := 1
    objects := Dict.empty.set 1 (.entity 0)
    rObjects := Dict.empty.set (.entity 0) 1 }

theorem listed_bowlGame {held : Option ℕ} {e : ℕ} (h : (bowlGame held).Listed (.entity e)) :
    e = 0 := by
  obtain ⟨id, hid⟩ := h
  change (Dict.empty.set 1 (Obj.entity 0)).get id = _ at hid
  rw [Dict.get_set, Dict.get_empty] at hid
  split_ifs at hid
  exact (Obj.entity.inj (Option.some.inj hid)).symm

/-- A player with an empty hand takes a stone. -/
theorem takeItem_allOrNothing_bowl :
    ∃ g', (Pile.takeItem (Dict.Length.first Obj) 0 (some 0)).Leaves (bowlGame none) g'
      ∧ AllOrNothing (bowlGame none) 0 (some 0) g' :=
  (takeItem_allOrNothing_iff _ (bowlGame none) (fun e he => by
    rw [listed_bowlGame he]
    exact Nat.one_pos) 0 ⟨1, rfl⟩ (some 0)).mpr (fun _ k n h => by
      obtain ⟨rfl, -⟩ := Prod.mk.inj (Option.some.inj h)
      exact ⟨rfl, 0, rfl, rfl⟩)

/-- **A player with a full hand** takes a stone, which is then nowhere. -/
theorem not_takeItem_allOrNothing :
    ¬ ∀ (L : Dict.Length Obj) (g : Game Empty), (∀ e, g.Listed (.entity e) → e < g.nextEntity) →
      ∀ self, g.Listed (.entity self) → ∀ who,
        ∃ g', (Pile.takeItem L self who).Leaves g g' ∧ AllOrNothing g self who g' := by
  intro h
  have hmade : ∀ e, (bowlGame (some 1)).Listed (.entity e) → e < (bowlGame (some 1)).nextEntity :=
    fun e he => by
      rw [listed_bowlGame he]
      exact Nat.one_pos
  obtain ⟨g', hl, hall⟩ := h (Dict.Length.first Obj) (bowlGame (some 1)) hmade 0 ⟨1, rfl⟩ (some 0)
  have hitem : ((bowlGame (some 1)).entities 0).item = some (.goPiece, []) := rfl
  have hrun := Pile.takeItem_apply (Dict.Length.first Obj) rfl hitem (some 0)
  obtain rfl := hl.of_ok hrun
  rcases hall with ⟨q, -, htook⟩ | hsame
  · exact absurd htook.empty nofun
  · exact created_objects_ne (Dict.Length.first Obj) (Kind.goPiece.entity []) (bowlGame (some 1))
      (fun id => hsame.objects id)

/-! ## What the requests do to the books -/

/-- **The same books**: the same objects and the same counts. -/
structure SameBooks (g g' : Game α) : Prop extends SameObjects g g' where
  /-- The counts. -/
  count : ∀ e, (g'.entities e).count = (g.entities e).count

theorem SameBooks.refl (g : Game α) : SameBooks g g := ⟨.refl g, fun _ => rfl⟩

theorem SameBooks.trans {g₁ g₂ g₃ : Game α} (h : SameBooks g₁ g₂) (h' : SameBooks g₂ g₃) :
    SameBooks g₁ g₃ :=
  ⟨h.toSameObjects.trans h'.toSameObjects, fun e => (h'.count e).trans (h.count e)⟩

theorem sameBooks_pickedUp (p item : ℕ) (g : Game α) : SameBooks g (g.pickedUp p item) := by
  refine ⟨sameObjects_pickedUp p item g, fun e => ?_⟩
  show ((g.grabbed p item).entities e).count = _
  rw [grabbed_entities]
  refine changeAt_field Entity.count ?_ _ _ _
  exact fun _ => rfl

theorem sameBooks_released (p item : ℕ) (g : Game α) : SameBooks g (g.released p item) := by
  refine ⟨sameObjects_released p item g, fun e => ?_⟩
  rw [released_entities]
  refine changeAt_field Entity.count ?_ _ _ _
  exact fun _ => rfl

theorem sameBooks_dropped (p item onto : ℕ) (x y : Option ℚ) (g : Game α) :
    SameBooks g (g.dropped p item onto x y) :=
  ⟨sameObjects_dropped p item onto x y g, (sameBooks_released p item g).count⟩

theorem sameBooks_letGo (p item : ℕ) (g : Game α) : SameBooks g (g.letGo p item) := by
  refine ⟨(SameObjects.withHeldBy g item none).trans (.withHeld _ p none), fun e => ?_⟩
  show ((g.withHeldBy item none).entities e).count = _
  rw [withHeldBy_entities]
  refine changeAt_field Entity.count ?_ _ _ _
  exact fun _ => rfl

/-- A count goes up or down. -/
def Game.recount (pile : ℕ) (n : ℤ) (g : Game α) : Game α :=
  g.mapEntity pile (fun v => { v with count := v.count.add n })

/-- **What a request does to the books**, when the player `p` makes it. -/
inductive Trade (L : Dict.Length Obj) (g : Game α) (p : ℕ) : Game α → Prop where
  /-- Nothing. -/
  | same {g' : Game α} (h : SameBooks g g') : Trade L g p g'
  /-- A pile has made an item. -/
  | minted {pile : ℕ} {k : Kind} {n : Bytes} {t : Game α} (hpile : g.Listed (.entity pile))
      (hcount : (g.entities pile).count.isPositive = true)
      (hitem : (g.entities pile).item = some (k, n)) (h : SameBooks (g.created L (k.entity n)) t) :
      Trade L g p (t.recount pile (-1))
  /-- A pile has taken back what the player held. -/
  | returned {pile item id : ℕ} {t : Game α} (hpile : g.Listed (.entity pile))
      (hrefuses : Pile.refuses g pile p = false)
      (hheld : (g.people p).held = some item) (hid : g.objects.get id = some (.entity item))
      (h : SameBooks g t) : Trade L g p ((t.deleted item id).recount pile 1)

section Trade

variable {who : Option ℕ} {x y : Option ℚ}

theorem Token.pickup_sameBooks (self p : ℕ) (g : Game α) :
    Run.Returns (Token.pickup self (some p)) g (fun _ => SameBooks g) := by
  refine ⟨(), _, Token.pickup_apply self p g, ?_⟩
  rcases (g.entities self).heldBy with _ | q
  · rcases (g.people p).held with _ | item
    · exact sameBooks_pickedUp p self g
    · exact .refl g
  · exact .refl g

theorem Board.drop_sameBooks (self p : ℕ) (x y : Option ℚ) (g : Game α) :
    Run.Ends (Board.drop self (some p) x y) g (fun _ => SameBooks g) (fun _ => SameBooks g) := by
  refine Run.Ends.get_bind ?_
  rw [Run.assertSome_bind]
  rcases hheld : (g.people p).held with _ | item
  · exact .pure (.refl g)
  by_cases hitem : item = self
  · simp only [if_pos hitem]
    exact .pure (.refl g)
  simp only [if_neg hitem]
  rcases x with _ | x
  · exact .throw (.refl g)
  rcases y with _ | y
  · exact .throw (.refl g)
  exact .of_returns ⟨(), _, Player.drop_apply hheld self _ _, sameBooks_dropped _ _ _ _ _ g⟩

theorem Piece.drop_sameBooks (self p : ℕ) (x y : Option ℚ) (g : Game α) :
    Run.Ends (Piece.drop self (some p) x y) g (fun _ => SameBooks g) (fun _ => SameBooks g) := by
  refine Run.Ends.get_bind ?_
  rcases (g.entities self).parent with _ | parent
  · exact .throw (.refl g)
  show Run.Ends (if (g.entities parent).kind = .chessBoard then _ else _ : Action α Unit) g _ _
  by_cases hboard : (g.entities parent).kind = .chessBoard
  swap
  · rw [if_neg hboard]
    exact .pure (.refl g)
  rw [if_pos hboard]
  rcases x with _ | x
  · exact .throw (.refl g)
  rcases y with _ | y
  · exact .throw (.refl g)
  show Run.Ends (Board.drop parent (some p) (some (x + (g.entities self).x))
    (some (y + (g.entities self).y)) >>= fun _ => Token.pickup self (some p)) g _ _
  refine Run.Ends.bind (Board.drop_sameBooks parent p _ _ g) (fun _ t ht => ?_)
  exact .of_returns ((Token.pickup_sameBooks self p t).weaken (fun _ _ h => ht.trans h))

/-- **Dropping on a pile**: nothing, or it takes back what is held. -/
theorem Pile.drop_trade (h : Sound Kind.Below g) (hself : g.Listed (.entity self))
    (hkind : (g.entities self).kind = .pile) (fuel p : ℕ) (x y : Option ℚ) :
    Run.Ends (Pile.drop (fuel + 1) self (some p) x y) g (fun _ => Trade L g p)
      (fun _ => Trade L g p) := by
  have hbare := bare_of_below (P := Policy.shipped) rfl
  have hnil : (g.entities self).children = [] := h.children_nil (by rw [hkind]; exact hbare.pile)
  by_cases hback : Pile.refuses g self p = false ∧ x ≠ none ∧ y ≠ none
    ∧ (g.people p).held ≠ none
  · obtain ⟨hrefuses, hx, hy, hsome⟩ := hback
    obtain ⟨x, rfl⟩ := Option.ne_none_iff_exists'.mp hx
    obtain ⟨y, rfl⟩ := Option.ne_none_iff_exists'.mp hy
    obtain ⟨item, hheld⟩ := Option.ne_none_iff_exists'.mp hsome
    have hstone := h.kind_of_not_refuses hrefuses hheld
    have hitem : (g.entities item).children = [] :=
      h.children_nil (by rw [hstone]; exact hbare.stone)
    obtain ⟨x', y', id, hid, hrun⟩ := Pile.drop_apply h hkind hrefuses hheld hnil hitem fuel x y
    exact .of_returns ⟨(), _, hrun, .returned hself hrefuses hheld hid
      (sameBooks_dropped _ _ _ _ _ g)⟩
  · -- one way or another nothing is dropped
    have hsame : Trade L g p g := .same (.refl g)
    refine Run.Ends.get_bind ?_
    show Run.Ends (if Pile.refuses g self p = true then _ else _ : Action α Unit) g _ _
    rcases hrefuses : Pile.refuses g self p with _ | _
    swap
    · rw [if_pos rfl]
      exact .pure hsame
    rw [if_neg Bool.false_ne_true]
    rcases hheld : (g.people p).held with _ | item
    · refine Or.inr ⟨.refused "index nil", g, ?_, hsame⟩
      rw [Run.bind_of_ok (Board.drop_empty hheld self x y), Run.get_bind, hnil]
      rfl
    · have hne := h.ne_of_not_refuses hkind hrefuses hheld
      have hplace : x = none ∨ y = none := by
        by_contra hxy
        rw [not_or] at hxy
        exact hback ⟨hrefuses, hxy.1, hxy.2, by simp [hheld]⟩
      exact Or.inr ⟨.refused "arithmetic on nil", g,
        Run.bind_of_error (Board.drop_nowhere hheld hne hplace), hsame⟩

/-- **Taking from a pile**: nothing, or it makes an item. -/
theorem Pile.takeItem_trade (h : Sound Kind.Below g) (hself : g.Listed (.entity self)) (p : ℕ) :
    Run.Ends (Pile.takeItem L self (some p)) g (fun _ => Trade L g p) (fun _ => Trade L g p) := by
  have hsame : Trade L g p g := .same (.refl g)
  by_cases hcount : (g.entities self).count.isPositive = true
  swap
  · refine Run.Ends.get_bind ?_
    rw [if_neg hcount]
    exact .pure hsame
  rcases hitem : (g.entities self).item with _ | ⟨k, n⟩
  · refine Run.Ends.get_bind ?_
    rw [if_pos hcount, hitem]
    exact .throw hsame
  obtain rfl := h.stock self k n hitem
  have hrun := Pile.takeItem_apply L hcount hitem (some p)
  rw [if_pos (show Kind.goPiece.isToken = true from rfl)] at hrun
  rcases hheld : (g.people p).held with _ | item
  · simp only [hheld] at hrun
    exact .of_returns ⟨(), _, hrun, .minted hself hcount hitem (sameBooks_pickedUp _ _ _)⟩
  · simp only [hheld] at hrun
    exact .of_returns ⟨(), _, hrun, .minted hself hcount hitem (.refl _)⟩

/-- **What a request of a player's does to the books**, unless it opens a
box. -/
theorem act_trade (h : Sound Kind.Below g) (hself : g.Listed (.entity self)) {method : Method}
    (hmethod : method ≠ .openBox) (fuel p : ℕ) (x y : Option ℚ) :
    Run.Ends (act L (fuel + 1) self method (some p) x y) g (fun _ => Trade L g p)
      (fun _ => Trade L g p) := by
  refine Run.Ends.get_bind ?_
  show Run.Ends (if method ∈ (g.entities self).kind.actions then _ else _ : Action α Unit) g _ _
  by_cases haction : method ∈ (g.entities self).kind.actions
  swap
  · rw [if_neg haction]
    exact .throw (.same (.refl g))
  rw [if_pos haction]
  cases method with
  | pickup =>
    exact .of_returns ((Token.pickup_sameBooks self p g).weaken (fun _ _ h => .same h))
  | drop =>
    show Run.Ends (if (g.entities self).kind = .chessPiece then _ else _ : Action α Unit) g _ _
    by_cases hpiece : (g.entities self).kind = .chessPiece
    · rw [if_pos hpiece]
      exact (Piece.drop_sameBooks self p x y g).weaken (fun _ _ h => .same h) (fun _ _ h => .same h)
    rw [if_neg hpiece]
    by_cases hpile : (g.entities self).kind = .pile
    · rw [if_pos hpile]
      exact Pile.drop_trade h hself hpile fuel p x y
    · rw [if_neg hpile]
      exact (Board.drop_sameBooks self p x y g).weaken (fun _ _ h => .same h) (fun _ _ h => .same h)
  | takeItem => exact Pile.takeItem_trade h hself p
  | openBox => exact absurd rfl hmethod

end Trade

/-! ## The books -/

/-- Whether an object is an entity of this class. -/
def Game.isOf (g : Game α) (k : Kind) : Obj → Bool
  | .entity e => (g.entities e).kind = k
  | _ => false

/-- **How many entities of this class are registered.** -/
def Game.stock (g : Game α) (k : Kind) : ℕ := g.objects.values.countP (g.isOf k)

section Books

variable {k : Kind}

theorem isOf_congr {t t' : Game α} (h : ∀ e, (t'.entities e).kind = (t.entities e).kind) :
    t'.isOf k = t.isOf k := by
  funext o
  cases o with
  | entity e =>
    show decide _ = decide _
    rw [h]
  | _ => rfl

theorem stock_sameBooks (h : SameBooks g g') : g'.stock k = g.stock k := by
  unfold Game.stock
  rw [isOf_congr h.kind]
  exact Dict.countP_of_get _ h.objects

theorem stock_recount (pile : ℕ) (n : ℤ) (g : Game α) : (g.recount pile n).stock k = g.stock k := by
  unfold Game.stock
  refine congrArg (g.objects.values.countP ·) (isOf_congr (fun e => ?_))
  unfold Game.recount
  rw [mapEntity_eq]
  refine changeAt_field Entity.kind ?_ _ _ _
  exact fun _ => rfl

/-- **One more** when an entity of the class is made. -/
theorem stock_created (h : ∀ e, g.Listed (.entity e) → e < g.nextEntity) (v : Entity) :
    (g.created L v).stock k = g.stock k + if v.kind = k then 1 else 0 := by
  unfold Game.stock
  show (g.objects.set (L.border g.objects + 1) (.entity g.nextEntity)).values.countP _ = _
  rw [Dict.countP_set _ (objects_free L g)]
  refine congrArg₂ _ (List.countP_congr (fun o ho => ?_)) ?_
  · cases o with
    | entity e =>
      show decide (((g.created L v).entities e).kind = k) = true ↔ decide (_ = k) = true
      rw [created_of_ne L v (h e (Dict.mem_values.mp ho)).ne]
    | _ => rfl
  · show (if decide (((g.created L v).entities g.nextEntity).kind = k) = true then 1 else 0) = _
    rw [created_self]
    exact if_congr (decide_eq_true_iff) rfl rfl

/-- **One less** when one of them is deleted. -/
theorem stock_deleted {item id : ℕ} (hid : g.objects.get id = some (.entity item)) :
    g.stock k = (g.deleted item id).stock k + if (g.entities item).kind = k then 1 else 0 := by
  unfold Game.stock
  rw [Dict.countP_erase _ hid]
  refine congrArg₂ _ rfl (if_congr ?_ rfl rfl)
  exact decide_eq_true_iff

/-- **The books of a pile**: what it has, and what is registered of its
class. -/
def Game.total (g : Game α) (pile : ℕ) (k : Kind) : Count :=
  (g.entities pile).count.add (g.stock k)

/-- No other pile is of that class. -/
def OnlyPile (g : Game α) (pile : ℕ) (k : Kind) : Prop :=
  ∀ e, g.Listed (.entity e) → (g.entities e).item.map Prod.fst = some k → e = pile

/-- **A pile with a number of items** of the class `k`. -/
structure Stocked (g : Game α) (pile : ℕ) (k : Kind) : Prop where
  /-- The game is sound. -/
  sound : Sound Kind.Below g
  /-- The pile is registered. -/
  listed : g.Listed (.entity pile)
  /-- It is a pile. -/
  kind : (g.entities pile).kind = .pile
  /-- It is one of that class. -/
  item : (g.entities pile).item.map Prod.fst = some k
  /-- It has so many. -/
  count : ∃ n : ℕ, (g.entities pile).count = .of n

/-- The class is one of stones, and no pile. -/
theorem Stocked.stone {pile : ℕ} (h : Stocked g pile k) : k = .goPiece := by
  obtain ⟨⟨k', n⟩, hk, rfl⟩ := Option.map_eq_some_iff.mp h.item
  exact h.sound.stock pile k' n hk

theorem recount_entities (pile : ℕ) (n : ℤ) (e : ℕ) : (g.recount pile n).entities e
    = if e = pile then { g.entities e with count := (g.entities e).count.add n }
      else g.entities e := by
  unfold Game.recount
  rw [mapEntity_eq]
  rfl

/-- A count that changes by `n`, and what is registered by `m`. -/
theorem total_of {pile : ℕ} {a b : ℕ} {c n m : ℤ} (hg : (g.entities pile).count = .of c)
    (hg' : (g'.entities pile).count = (g.entities pile).count.add n) (ha : g.stock k = a)
    (hb : g'.stock k = b) (hab : (b : ℤ) = a + m) (hnm : n + m = 0) :
    g'.total pile k = g.total pile k := by
  unfold Game.total
  rw [hg', hg, ha, hb]
  show Count.of (c + n + b) = Count.of (c + a)
  refine congrArg Count.of ?_
  omega

/-- What has the same books for a pile. -/
theorem total_same {pile : ℕ} (hcount : (g'.entities pile).count = (g.entities pile).count)
    (hstock : g'.stock k = g.stock k) : g'.total pile k = g.total pile k := by
  unfold Game.total
  rw [hcount, hstock]

/-- **A request keeps the books of a pile.** -/
theorem Stocked.trade {pile : ℕ} (h : Stocked g pile k) (hsound : Sound Kind.Below g')
    (ht : Trade L g p g') : Stocked g' pile k
      ∧ (OnlyPile g pile k → OnlyPile g' pile k ∧ g'.total pile k = g.total pile k) := by
  obtain ⟨n, hn⟩ := h.count
  have hlt := h.sound.entity pile h.listed
  cases ht with
  | same hb =>
    refine ⟨⟨hsound, (hb.listed _).mpr h.listed, ?_, ?_, n, ?_⟩, fun honly =>
      ⟨fun e he hk => ?_, total_same (hb.count pile) (stock_sameBooks hb)⟩⟩
    · rw [hb.kind, h.kind]
    · rw [hb.item, h.item]
    · rw [hb.count, hn]
    · rw [hb.item] at hk
      exact honly e ((hb.listed _).mp he) hk
  | @minted other k' name t hother hcount hitem hb =>
    have hold : ∀ e, e < g.nextEntity → (t.entities e).kind = (g.entities e).kind
        ∧ (t.entities e).item = (g.entities e).item
        ∧ (t.entities e).count = (g.entities e).count := fun e he => by
      rw [hb.kind, hb.item, hb.count, created_of_ne L _ he.ne]
      exact ⟨rfl, rfl, rfl⟩
    obtain ⟨hkind', hitem', hcount'⟩ := hold pile hlt
    have hlisted : ∀ o, (t.recount other (-1)).Listed o ↔ o = .entity g.nextEntity ∨ g.Listed o :=
      fun o => (hb.listed o).trans (created_listed L _ g o)
    have hfields : ∀ e, ((t.recount other (-1)).entities e).kind = (t.entities e).kind
        ∧ ((t.recount other (-1)).entities e).item = (t.entities e).item := fun e => by
      rw [recount_entities]
      split_ifs <;> exact ⟨rfl, rfl⟩
    have hstock : (t.recount other (-1)).stock k = g.stock k + if k' = k then 1 else 0 := by
      rw [stock_recount, stock_sameBooks hb, stock_created h.sound.entity]
      rfl
    refine ⟨⟨hsound, (hlisted _).mpr (Or.inr h.listed), ?_, ?_, ?_⟩, fun honly =>
      ⟨fun e he hk => ?_, ?_⟩⟩
    · rw [(hfields pile).1, hkind', h.kind]
    · rw [(hfields pile).2, hitem', h.item]
    · rw [recount_entities, hcount']
      split_ifs with hpile
      · -- there was one to take
        rw [hpile] at hn
        rw [hn] at hcount
        have hpos : (0 : ℤ) < n := of_decide_eq_true hcount
        refine ⟨n - 1, ?_⟩
        rw [← hpile] at hn
        show (g.entities pile).count.add (-1) = _
        rw [hn]
        refine congrArg Count.of ?_
        omega
      · exact ⟨n, hcount'.trans hn⟩
    · rw [(hfields e).2] at hk
      rcases (hlisted _).mp he with hnew | hold'
      · obtain rfl := Obj.entity.inj hnew
        rw [hb.item, created_self] at hk
        cases hk
      · rw [(hold e (h.sound.entity e hold')).2.1] at hk
        exact honly e hold' hk
    · by_cases hpile : pile = other
      · have hk' : k' = k := by
          have := h.item
          rw [hpile, hitem] at this
          exact Option.some.inj this
        rw [if_pos hk'] at hstock
        refine total_of (n := -1) (m := 1) hn ?_ rfl hstock (by push_cast; ring) (by ring)
        rw [recount_entities, if_pos hpile, hcount']
      · have hk' : k' ≠ k := fun hk' => hpile (honly other hother (by rw [hitem, hk']; rfl)).symm
        rw [if_neg hk'] at hstock
        refine total_same ?_ hstock
        rw [recount_entities, if_neg hpile, hcount']
  | @returned other item id t hother hrefuses hheld hid hb =>
    have hstone := h.sound.kind_of_not_refuses hrefuses hheld
    have hid' : t.objects.get id = some (.entity item) := by
      rw [hb.objects, hid]
    have hne : pile ≠ item := by
      rintro rfl
      rw [h.kind] at hstone
      cases hstone
    have hlisted : ∀ o, ((t.deleted item id).recount other 1).Listed o → g.Listed o := by
      intro o ho
      obtain ⟨i, hi⟩ := ho
      change (t.objects.erase id).get i = some o at hi
      rw [Dict.get_erase] at hi
      split_ifs at hi
      exact (hb.listed o).mp ⟨i, hi⟩
    have hfields : ∀ e,
        (((t.deleted item id).recount other 1).entities e).kind = (g.entities e).kind
        ∧ (((t.deleted item id).recount other 1).entities e).item = (g.entities e).item := by
      intro e
      rw [← hb.kind, ← hb.item, recount_entities]
      split_ifs <;> exact ⟨rfl, rfl⟩
    have hcount : ∀ e, ((t.deleted item id).entities e).count = (g.entities e).count := hb.count
    have hstock : g.stock k = ((t.deleted item id).recount other 1).stock k
        + if Kind.goPiece = k then 1 else 0 := by
      rw [← stock_sameBooks hb, stock_recount, stock_deleted hid', hb.kind, hstone]
    refine ⟨⟨hsound, ?_, ?_, ?_, ?_⟩, fun honly => ⟨fun e he hk => ?_, ?_⟩⟩
    · obtain ⟨i, hi⟩ := h.listed
      refine ⟨i, ?_⟩
      show (t.objects.erase id).get i = _
      rw [Dict.get_erase_of_ne, hb.objects, hi]
      rintro rfl
      exact hne (Obj.entity.inj (Option.some.inj (hi.symm.trans hid)))
    · rw [(hfields pile).1, h.kind]
    · rw [(hfields pile).2, h.item]
    · rw [recount_entities]
      split_ifs with hpile
      · refine ⟨n + 1, ?_⟩
        show Count.add _ _ = _
        rw [hcount, hn]
        rfl
      · exact ⟨n, (hcount pile).trans hn⟩
    · rw [(hfields e).2] at hk
      exact honly e (hlisted _ he) hk
    · -- the pile is one of stones, and so is the one that took the stone back
      rw [if_pos h.stone.symm] at hstock
      have hitem : (g.entities other).item.map Prod.fst = some k := by
        rw [item_of_not_refuses hrefuses hheld, hstone, h.stone]
      have hpile := (honly other hother hitem).symm
      refine total_of (n := 1) (m := -1) hn ?_ hstock rfl (by push_cast; ring) (by ring)
      rw [recount_entities, if_pos hpile, hcount]

end Books

/-! ## Runs -/

/-- **What a run reaches** in which players ask for whatever they like, but
for boxes to be opened, and leave. -/
inductive Traded (L : Dict.Length Obj) (fuel : ℕ) (g₀ : Game α) : Game α → Prop where
  /-- The game it starts in. -/
  | start : Traded L fuel g₀ g₀
  /-- A player's request, whether it is granted or fails. -/
  | act {g g' : Game α} (e : ℕ) (method : Method) (p : ℕ) (x y : Option ℚ) (h : Traded L fuel g₀ g)
      (he : g.Listed (.entity e)) (hmethod : method ≠ .openBox) (hp : p < g.nextPlayer)
      (hl : (act L (fuel + 1) e method (some p) x y).Leaves g g') : Traded L fuel g₀ g'
  /-- A player leaves. -/
  | leave {g g' : Game α} (p : ℕ) (h : Traded L fuel g₀ g)
      (hl : (Player.disconnect p).Leaves g g') : Traded L fuel g₀ g'

/-- **The books of a pile are in order**: it has some number of items, which
is not negative, nothing stands on it, and what a drop on it deletes is what
was dropped. If no other pile is of its class, there are as many items as
there were. -/
structure Balanced (L : Dict.Length Obj) (fuel : ℕ) (g₀ : Game α) (pile : ℕ) (k : Kind)
    (g : Game α) : Prop where
  /-- It has a number of items. -/
  count : ∃ n : ℕ, (g.entities pile).count = .of n
  /-- Nothing stands on it. -/
  children : (g.entities pile).children = []
  /-- What is deleted is what was dropped. -/
  deletes : ∀ p, p < g.nextPlayer → ∀ x y g',
    (act L (fuel + 1) pile .drop (some p) x y).Leaves g g' → ∀ o, g.Listed o → ¬g'.Listed o →
      ∃ item, o = .entity item ∧ (g.people p).held = some item
  /-- As many items as there were. -/
  total : OnlyPile g₀ pile k → g.total pile k = g₀.total pile k

section Run

variable {fuel : ℕ} {g₀ : Game α} {pile : ℕ} {k : Kind}

/-- A request leaves a sound game. -/
theorem Sound.of_act (h : Sound Kind.Below g) {e : ℕ} (he : g.Listed (.entity e)) {method : Method}
    (hp : p < g.nextPlayer) {x y : Option ℚ}
    (hl : (act L (fuel + 1) e method (some p) x y).Leaves g g') : Sound Kind.Below g' := by
  have hwho : Asker Policy.shipped g (some p) :=
    ⟨fun q hq => by rw [← Option.some.inj hq]; exact hp, fun _ _ => trivial⟩
  have hallows : Allows Policy.shipped L g e method (some p) :=
    ⟨fun _ _ _ _ _ => ⟨trivial, bare_of_below rfl⟩, fun _ _ _ => ⟨trivial, Or.inr trivial⟩,
      fun _ _ _ _ _ _ => ⟨fun _ => trivial, fun _ => ⟨trivial, fun _ _ => trivial⟩⟩⟩
  have hends := act_ends (hosts_of_below rfl) h he hwho hallows fuel x y
  rcases hends.of_leaves hl with ⟨_, hc⟩ | ⟨_, hc, -⟩
  · exact h.chain hc
  · exact h.chain hc

/-- What a trade unregisters is what the player held. -/
theorem Trade.unlisted (ht : Trade L g p g') {o : Obj} (ho : g.Listed o) (hno : ¬g'.Listed o) :
    ∃ item, o = .entity item ∧ (g.people p).held = some item := by
  cases ht with
  | same hb => exact absurd ((hb.listed o).mpr ho) hno
  | minted _ _ _ hb =>
    exact absurd ((hb.listed o).mpr ((created_listed L _ g o).mpr (Or.inr ho))) hno
  | @returned _ item id t _ _ hheld hid hb =>
    refine ⟨item, ?_, hheld⟩
    obtain ⟨i, hi⟩ := ho
    by_contra hne
    refine hno ⟨i, ?_⟩
    show (t.objects.erase id).get i = _
    rw [Dict.get_erase_of_ne, hb.objects, hi]
    rintro rfl
    exact hne (Option.some.inj (hi.symm.trans hid))

/-- A player who leaves leaves the books alone. -/
theorem Player.disconnect_sameBooks (p : ℕ) (g : Game α) :
    Run.Returns (Player.disconnect p) g (fun _ => SameBooks g) := by
  refine Run.Returns.bind (M := fun _ => SameBooks g) ?_ ?_
  · refine Run.Returns.get_bind ?_
    rcases (g.people p).held with _ | item
    · exact .pure (.refl g)
    · exact ⟨(), _, rfl, sameBooks_letGo p item g⟩
  · rintro _ t ht
    exact ⟨(), t.say (fun _ => .message (formatString (t.playerName p) ++ bytes " disconnected.")),
      rfl, ht.trans ⟨.say _ _, fun _ => rfl⟩⟩

/-- **The books stay in order**, step by step. -/
theorem Stocked.traded (h₀ : Stocked g₀ pile k) (h : Traded L fuel g₀ g) : Stocked g pile k
    ∧ (OnlyPile g₀ pile k → OnlyPile g pile k ∧ g.total pile k = g₀.total pile k) := by
  induction h with
  | start => exact ⟨h₀, fun honly => ⟨honly, rfl⟩⟩
  | @act g g' e method p x y _ he hmethod hp hl ih =>
    obtain ⟨hstocked, htotal⟩ := ih
    have ht : Trade L g p g' := by
      rcases (act_trade hstocked.sound he hmethod fuel p x y).of_leaves hl with ⟨_, ht⟩ | ⟨_, ht⟩
      · exact ht
      · exact ht
    obtain ⟨hstocked', htotal'⟩ := hstocked.trade (hstocked.sound.of_act he hp hl) ht
    refine ⟨hstocked', fun honly => ?_⟩
    obtain ⟨honly', heq⟩ := htotal honly
    obtain ⟨honly'', heq'⟩ := htotal' honly'
    exact ⟨honly'', heq'.trans heq⟩
  | leave p _ hl ih =>
    obtain ⟨hstocked, htotal⟩ := ih
    obtain ⟨_, hb⟩ := (Player.disconnect_sameBooks p _).of_leaves hl
    obtain ⟨_, hc, -⟩ := (Player.disconnect_changes (P := Policy.shipped) (L := L) p _
      (fun _ _ _ => trivial)).of_leaves hl
    obtain ⟨hstocked', htotal'⟩ :=
      hstocked.trade (L := L) (p := p) (hstocked.sound.chain hc) (.same hb)
    refine ⟨hstocked', fun honly => ?_⟩
    obtain ⟨honly', heq⟩ := htotal honly
    obtain ⟨honly'', heq'⟩ := htotal' honly'
    exact ⟨honly'', heq'.trans heq⟩

/-- **The books of a pile stay in order**, whatever players take from it, drop
on it and elsewhere, and pick up. -/
theorem balanced_of_traded (L : Dict.Length Obj) (fuel : ℕ) (g₀ : Game α)
    (hsound : Sound Kind.Below g₀) (pile : ℕ) (k : Kind) (name : Bytes) (n : ℕ)
    (hlisted : g₀.Listed (.entity pile)) (hkind : (g₀.entities pile).kind = .pile)
    (hitem : (g₀.entities pile).item = some (k, name)) (hcount : (g₀.entities pile).count = .of n)
    (g : Game α) (h : Traded L fuel g₀ g) : Balanced L fuel g₀ pile k g := by
  have h₀ : Stocked g₀ pile k := ⟨hsound, hlisted, hkind, by rw [hitem]; rfl, n, hcount⟩
  obtain ⟨hstocked, htotal⟩ := h₀.traded h
  refine ⟨hstocked.count, ?_, fun p hp x y g' hl o ho hno => ?_, fun honly => (htotal honly).2⟩
  · refine hstocked.sound.children_nil ?_
    rw [hstocked.kind]
    exact (bare_of_below (P := Policy.shipped) rfl).pile
  · have hmethod : Method.drop ≠ .openBox := nofun
    rcases (act_trade (L := L) hstocked.sound hstocked.listed hmethod fuel p x y).of_leaves hl
      with ⟨_, ht⟩ | ⟨_, ht⟩
    · exact ht.unlisted ho hno
    · exact ht.unlisted ho hno

/-- A player takes a stone from a bowl of three. -/
theorem balanced_of_takeItem :
    ∃ (g₀ g : Game (Box.Point Obj)), (g₀.entities 4).count = .of 3
      ∧ (act Site.plain.length 1 4 .takeItem (some 0) none none).Leaves g₀ g
      ∧ Balanced Site.plain.length 0 g₀ 4 .goPiece g := by
  obtain ⟨s, hs, hlisted, hkind, hitem, hplayer⟩ := exists_played (fun _ _ => True) Site.plain 5
    (State.opening Site.plain [bytes "go"])
    [.session (.connect 0 (some [])),
      .session (.login 0 (.string (bytes "a")) .nil .nil .nil .nil), .act 0 1 .openBox none none]
    (Q := fun s => s.game.Listed (.entity 4) ∧ (s.game.entities 4).kind = .pile
      ∧ (s.game.entities 4).item = some (.goPiece, bytes "white stone") ∧ 0 < s.game.nextPlayer)
    (by decide +kernel)
  have hsound := ((manned_opening Site.plain _ (hosts_of_below rfl) trivial
    (fun _ => trivial)).played (hosts_of_below rfl) (fun d s _ => may_shipped d s) hs).sound
  let g₀ := s.game.mapEntity 4 (fun v => { v with opened := false, count := .of 3 })
  have hsound₀ : Sound Kind.Below g₀ := Sound.change (P := Policy.shipped)
    (L := Site.plain.length) hsound (.tweak (e := 4) false (.of 3))
  have hfour : g₀.entities 4 = { s.game.entities 4 with opened := false, count := .of 3 } :=
    mapEntity_self s.game 4 (fun v => { v with opened := false, count := .of 3 })
  have hmethod : Method.takeItem ≠ .openBox := nofun
  have hends := act_trade (L := Site.plain.length) hsound₀ hlisted hmethod 0 0 none none
  have hleaves : ∃ g, (act Site.plain.length 1 4 .takeItem (some 0) none none).Leaves g₀ g := by
    rcases hends with ⟨a, g, hg, -⟩ | ⟨e, g, hg, -⟩
    · exact ⟨g, Or.inl ⟨a, hg⟩⟩
    · exact ⟨g, Or.inr ⟨e, hg⟩⟩
  obtain ⟨g, hg⟩ := hleaves
  refine ⟨g₀, g, by rw [hfour], hg, ?_⟩
  exact balanced_of_traded Site.plain.length 0 g₀ hsound₀ 4 .goPiece (bytes "white stone") 3 hlisted
    (by rw [hfour]; exact hkind) (by rw [hfour]; exact hitem) (by rw [hfour]; rfl) g
    (.act 4 .takeItem 0 none none .start hlisted nofun hplayer hg)

end Run

end Server

end Felt
