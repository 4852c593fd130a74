import Felt.Server.Script

/-!
# What players do, as changes

Every method in an `actions` list makes changes, one after the other, and so
do logging in and leaving – also when it raises. `Fit` is what a request has
to be like for its method not to raise; `Allows` says which of the rarer
changes the request makes.

Each method has one lemma, named after it with `_ends`. It says that the method
ends, that what it leaves is a chain of changes from where it started, and when
it raises it also says why, in terms of the state before: the entity stands
nowhere, the hand is empty, there is no class of items, the coordinates are
missing. Put together these are `Fit`. What an error leaves is little
(`Untouched`), and that is used where a connection ends because of one.
-/

namespace Felt

namespace Server

variable {α : Type} {P : Policy} {L : Dict.Length Obj} {g : Game α}

/-- **What stays empty**: nothing may stand on a pile or on a stone. -/
structure Policy.Bare (P : Policy) : Prop where
  /-- Nothing on a pile. -/
  pile : ∀ k, ¬P.fits k .pile
  /-- Nothing on a stone. -/
  stone : ∀ k, ¬P.fits k .goPiece

theorem Sound.children_nil {fits : Kind → Kind → Prop} (h : Sound fits g) {e : ℕ}
    (hbare : ∀ k, ¬fits k (g.entities e).kind) : (g.entities e).children = [] := by
  refine List.eq_nil_iff_forall_not_mem.mpr (fun c hc => ?_)
  exact hbare _ (h.parent c e ((h.tree.child_iff e c).mp hc)).2.2

/-- What the trait `Board` is part of, but for pieces and piles. -/
def Kind.isBoard : Kind → Bool
  | .field => true
  | .chessBoard => true
  | .goBoard => true
  | _ => false

theorem Policy.Hosts.fits (hP : P.Hosts) {k b : Kind} (hk : k.isToken = true)
    (hb : b.isBoard = true) : P.fits k b := by
  cases b with
  | field =>
    refine hP.field k ?_
    rintro rfl
    cases hk
  | chessBoard => exact hP.chessBoard k hk
  | goBoard => exact hP.goBoard k hk
  | _ => cases hb

/-- **Who asks**: if it is a player, then one that was made, and may take
something. -/
structure Asker (P : Policy) (g : Game α) (who : Option ℕ) : Prop where
  /-- The player was made. -/
  made : ∀ p, who = some p → p < g.nextPlayer
  /-- They may take something. -/
  hand : ∀ p, who = some p → P.hand p

/-- **What an error leaves**: the same hands, and what there was where it
was. -/
structure Untouched (g g' : Game α) : Prop where
  /-- The same hands. -/
  held : ∀ p, (g'.people p).held = (g.people p).held
  /-- The same parents. -/
  parent : ∀ e, e < g.nextEntity → (g'.entities e).parent = (g.entities e).parent

theorem Untouched.refl (g : Game α) : Untouched g g := ⟨fun _ => rfl, fun _ _ => rfl⟩

/-! ## Picking up and dropping -/

/-- **Picking up a token.** -/
theorem Token.pickup_ends {self : ℕ} (hself : g.Listed (.entity self))
    (htoken : (g.entities self).kind.isToken = true) {who : Option ℕ} (hwho : Asker P g who) :
    Run.Ends (Token.pickup self who) g (fun _ => Chain P L g)
      (fun _ g' => g' = g ∧ who = none) := by
  rcases who with _ | p
  · refine Run.Ends.get_bind ?_
    rcases (g.entities self).heldBy with _ | q
    · exact .throw ⟨rfl, rfl⟩
    · exact .pure .refl
  · refine .of_returns ⟨(), _, Token.pickup_apply self p g, ?_⟩
    rcases hby : (g.entities self).heldBy with _ | q
    · rcases hheld : (g.people p).held with _ | item
      · exact .single (.pickup (hwho.hand p rfl) (hwho.made p rfl) hself htoken hheld hby)
      · exact .refl
    · exact .refl

/-- **A drop looks at its coordinates**: it is one on a chess piece on its
board, or there is something to drop. -/
inductive Drops (g : Game α) (self : ℕ) (who : Option ℕ) : Prop where
  /-- On a chess piece. -/
  | piece {board : ℕ} (hkind : (g.entities self).kind = .chessPiece)
      (hparent : (g.entities self).parent = some board)
      (hboard : (g.entities board).kind = .chessBoard)
  /-- On something else. -/
  | held {p item : ℕ} (hkind : (g.entities self).kind ≠ .chessPiece) (hwho : who = some p)
      (hheld : (g.people p).held = some item) (hne : item ≠ self)
      (hpile : (g.entities self).kind = .pile → Pile.refuses g self p = false)

/-- **Dropping on a board.** -/
theorem Board.drop_ends (hP : P.Hosts) (h : Sound P.fits g) {self : ℕ}
    (hself : g.Listed (.entity self)) (hboard : (g.entities self).kind.isBoard = true)
    (who : Option ℕ) (x y : Option ℚ) :
    Run.Ends (Board.drop self who x y) g (fun _ g' => Chain P L g g')
      (fun _ g' => g' = g ∧ (who = none ∨ Drops g self who ∧ (x = none ∨ y = none))) := by
  rcases who with _ | p
  · exact .throw ⟨rfl, Or.inl rfl⟩
  refine Run.Ends.get_bind ?_
  rw [Run.assertSome_bind]
  rcases hheld : (g.people p).held with _ | item
  · exact .pure .refl
  by_cases hitem : item = self
  · simp only [if_pos hitem]
    exact .pure .refl
  simp only [if_neg hitem]
  have hdrops : Drops g self (some p) := by
    refine .held (fun hkind => ?_) rfl hheld hitem (fun hkind => ?_)
    all_goals
      rw [hkind] at hboard
      cases hboard
  rcases x with _ | x
  · exact .throw ⟨rfl, Or.inr ⟨hdrops, Or.inl rfl⟩⟩
  rcases y with _ | y
  · exact .throw ⟨rfl, Or.inr ⟨hdrops, Or.inr rfl⟩⟩
  refine .of_returns ⟨(), _, Player.drop_apply hheld self _ _, .single (.drop hheld hself ?_)⟩
  exact hP.fits (h.held p item hheld).2 hboard

/-- **Dropping on a chess piece.** -/
theorem Piece.drop_ends (hP : P.Hosts) (h : Sound P.fits g) {self : ℕ}
    (hself : g.Listed (.entity self)) (hkind : (g.entities self).kind = .chessPiece)
    {who : Option ℕ} (hwho : Asker P g who) (x y : Option ℚ) :
    Run.Ends (Piece.drop self who x y) g (fun _ g' => Chain P L g g')
      (fun _ g' => g' = g ∧ (who = none ∨ (g.entities self).parent = none
        ∨ Drops g self who ∧ (x = none ∨ y = none))) := by
  refine Run.Ends.get_bind ?_
  rcases hparent : (g.entities self).parent with _ | parent
  · exact .throw ⟨rfl, Or.inr (Or.inl rfl)⟩
  show Run.Ends (if (g.entities parent).kind = .chessBoard then _ else _ : Action α Unit) g _ _
  by_cases hboard : (g.entities parent).kind = .chessBoard
  · rw [if_pos hboard]
    have hdrops : Drops g self who := .piece hkind hparent hboard
    rcases x with _ | x
    · exact .throw ⟨rfl, Or.inr (Or.inr ⟨hdrops, Or.inl rfl⟩)⟩
    rcases y with _ | y
    · exact .throw ⟨rfl, Or.inr (Or.inr ⟨hdrops, Or.inr rfl⟩)⟩
    have hlisted := (h.parent self parent hparent).2.1
    show Run.Ends (Board.drop parent who (some (x + (g.entities self).x))
      (some (y + (g.entities self).y)) >>= fun _ => Token.pickup self who) g _ _
    rcases who with _ | p
    · exact Or.inr ⟨_, g, rfl, rfl, Or.inl rfl⟩
    refine Run.Ends.bind (M := fun _ g' => Chain P L g g' ∧ SameObjects g g') ?_ ?_
    · -- the drop registers and unregisters nothing
      refine .of_returns ⟨(), _, Board.drop_apply parent p _ _ g, ?_⟩
      have hfits : ∀ item, (g.people p).held = some item →
          P.fits (g.entities item).kind (g.entities parent).kind := fun item hheld =>
        hP.fits (h.held p item hheld).2 (by rw [hboard]; rfl)
      rcases hheld : (g.people p).held with _ | item
      · exact ⟨.refl, .refl g⟩
      · by_cases hitem : item = parent
        · simp only [if_pos hitem]
          exact ⟨.refl, .refl g⟩
        · simp only [if_neg hitem]
          exact ⟨.single (.drop hheld hlisted (hfits item hheld)), sameObjects_dropped _ _ _ _ _ _⟩
    · rintro _ g' ⟨hc, hsame⟩
      refine (Token.pickup_ends (P := P) (L := L) ((hsame.listed _).mpr hself) ?_
        ⟨fun q hq => ?_, hwho.hand⟩).weaken (fun _ _ h' => hc.trans h')
        (fun _ _ h' => absurd h'.2 nofun)
      · rw [hsame.kind, hkind]
        rfl
      · rw [hsame.nextPlayer]
        exact hwho.made q hq
  · rw [if_neg hboard]
    exact .pure .refl

/-! ## Piles -/

/-- The count of a pile changes. -/
theorem Change.count (g : Game α) (e : ℕ) (n : ℤ) :
    Change P L g (g.mapEntity e (fun v => { v with count := v.count.add n })) :=
  .tweak (e := e) (g.entities e).opened ((g.entities e).count.add n)


/-- **The pile takes something back**: it does not refuse what is in the hand,
and there is something in the hand, or on the pile. -/
def Pile.TakesBack (g : Game α) (self p : ℕ) : Prop :=
  Pile.refuses g self p = false
    ∧ ((∃ item, (g.people p).held = some item ∧ item ≠ self) ∨ (g.entities self).children ≠ [])

/-- **An entity without children is deleted.** -/
theorem delete_apply {e id : ℕ} (hchildren : (g.entities e).children = [])
    (hid : (g.entities e).id = some id) (fuel : ℕ) :
    delete (fuel + 1) e g = .ok () (g.deleted e id) := by
  show (deleteChildren fuel e (g.entities e).children.length 0 >>= _) g = _
  rw [hchildren]
  have hnone : deleteChildren fuel e 0 0 g = .ok () g := by
    cases fuel <;> rfl
  rw [List.length_nil, Run.bind_of_ok hnone]
  show (moveto e none none none >>= fun _ => deleteObject (.entity e)) g = _
  rw [Run.bind_of_ok (moveto_apply e none none none g)]
  refine deleteObject_apply ?_
  exact hid

/-- What a pile does not refuse is of its class. -/
theorem item_of_not_refuses {self p item : ℕ} (hrefuses : Pile.refuses g self p = false)
    (hheld : (g.people p).held = some item) :
    (g.entities self).item.map Prod.fst = some (g.entities item).kind := by
  unfold Pile.refuses at hrefuses
  rw [hheld] at hrefuses
  simpa using hrefuses

/-- What a pile does not refuse is a stone. -/
theorem Sound.kind_of_not_refuses {fits : Kind → Kind → Prop} (h : Sound fits g) {self p item : ℕ}
    (hrefuses : Pile.refuses g self p = false) (hheld : (g.people p).held = some item) :
    (g.entities item).kind = .goPiece := by
  obtain ⟨⟨k, n⟩, hk, hkind⟩ := Option.map_eq_some_iff.mp (item_of_not_refuses hrefuses hheld)
  rw [← hkind]
  exact h.stock self k n hk

/-- What a pile does not refuse is not the pile. -/
theorem Sound.ne_of_not_refuses {fits : Kind → Kind → Prop} (h : Sound fits g) {self p item : ℕ}
    (hkind : (g.entities self).kind = .pile) (hrefuses : Pile.refuses g self p = false)
    (hheld : (g.people p).held = some item) : item ≠ self := by
  rintro rfl
  rw [h.kind_of_not_refuses hrefuses hheld] at hkind
  cases hkind

/-- **A pile takes back what is dropped on it**: the item is on the pile for a
moment, and is the one that is deleted. -/
theorem Pile.drop_apply {fits : Kind → Kind → Prop} (h : Sound fits g) {self p item : ℕ}
    (hkind : (g.entities self).kind = .pile) (hrefuses : Pile.refuses g self p = false)
    (hheld : (g.people p).held = some item) (hnil : (g.entities self).children = [])
    (hitem : (g.entities item).children = []) (fuel : ℕ) (x y : ℚ) :
    ∃ x' y' id, g.objects.get id = some (.entity item)
      ∧ Pile.drop (fuel + 1) self (some p) (some x) (some y) g
        = .ok () (((g.dropped p item self (some x') (some y')).deleted item id).mapEntity self
          (fun v => { v with count := v.count.add 1 })) := by
  have hne := h.ne_of_not_refuses hkind hrefuses hheld
  obtain ⟨id, hid⟩ := (h.held p item hheld).1
  have hdrop := Board.drop_apply self p x y g
  rw [hheld] at hdrop
  simp only [if_neg hne] at hdrop
  generalize hxy : (g.entities self).kind.place (g.entities item) x y = xy at hdrop
  obtain ⟨x', y'⟩ := xy
  -- what was dropped is the only child
  have hparent : (g.entities item).parent ≠ some self := fun hp => by
    have hmem := (h.tree.child_iff self item).mpr hp
    rw [hnil] at hmem
    cases hmem
  have hchild : ((g.dropped p item self (some x') (some y')).entities self).children = [item] := by
    rw [dropped_children, hnil]
    unfold movedChildren
    rw [if_neg hparent, if_neg hparent, if_pos rfl, List.nil_append]
  have hleaf : ((g.dropped p item self (some x') (some y')).entities item).children = [] := by
    rw [dropped_children, hitem]
    exact movedChildren_nil (fun hp => hne (Option.some.inj hp).symm)
  have hidOf : ((g.dropped p item self (some x') (some y')).entities item).id = some id := by
    rw [(sameObjects_dropped p item self (some x') (some y') g).entityId]
    exact h.id_of id _ hid
  refine ⟨x', y', id, hid, ?_⟩
  show (if Pile.refuses g self p = true then _ else _ : Action α Unit) g = _
  rw [hrefuses, if_neg Bool.false_ne_true, Run.bind_of_ok hdrop, Run.get_bind, hchild]
  show (delete (fuel + 1) item >>= fun _ => _) (g.dropped p item self (some x') (some y')) = _
  rw [Run.bind_of_ok (delete_apply hleaf hidOf fuel)]
  rfl

/-- **Dropping on a pile.** -/
theorem Pile.drop_ends (h : Sound P.fits g) {self : ℕ} (hself : g.Listed (.entity self))
    (hkind : (g.entities self).kind = .pile) {who : Option ℕ}
    (hback : ∀ p, who = some p → Pile.TakesBack g self p → P.nowhere ∧ P.Bare) (fuel : ℕ)
    (x y : Option ℚ) :
    Run.Ends (Pile.drop (fuel + 1) self who x y) g (fun _ g' => Chain P L g g')
      (fun _ g' => g' = g ∧ ((∀ p, who = some p → (g.people p).held = none)
        ∨ Drops g self who ∧ (x = none ∨ y = none))) := by
  refine Run.Ends.get_bind ?_
  rcases who with _ | p
  · exact .throw ⟨rfl, Or.inl (by simp)⟩
  show Run.Ends (if Pile.refuses g self p = true then _ else _ : Action α Unit) g _ _
  rcases hrefuses : Pile.refuses g self p with _ | _
  swap
  · rw [if_pos rfl]
    exact .pure .refl
  rw [if_neg Bool.false_ne_true]
  rcases hheld : (g.people p).held with _ | item
  · -- an empty hand: the pile deletes what stands on it, which is nothing
    have hnil : (g.entities self).children = [] := by
      by_contra hne
      have hbare := (hback p rfl ⟨hrefuses, Or.inr hne⟩).2
      refine hne (h.children_nil ?_)
      rw [hkind]
      exact hbare.pile
    refine Or.inr ⟨.refused "index nil", g, ?_, rfl, Or.inl (fun q hq => ?_)⟩
    · rw [Run.bind_of_ok (Board.drop_empty hheld self x y), Run.get_bind, hnil]
      rfl
    · rw [← Option.some.inj hq, hheld]
  · -- what a pile does not refuse is a stone, which nothing stands on
    have hstone := h.kind_of_not_refuses hrefuses hheld
    have hne := h.ne_of_not_refuses hkind hrefuses hheld
    obtain ⟨hnowhere, hbare⟩ := hback p rfl ⟨hrefuses, Or.inl ⟨item, hheld, hne⟩⟩
    have hnil : (g.entities self).children = [] := h.children_nil (by rw [hkind]; exact hbare.pile)
    have hitem : (g.entities item).children = [] := h.children_nil
      (by rw [hstone]; exact hbare.stone)
    have hdrops : Drops g self (some p) := by
      refine .held (fun hpiece => ?_) rfl hheld hne (fun _ => hrefuses)
      rw [hpiece] at hkind
      cases hkind
    rcases x with _ | x
    · exact Or.inr ⟨.refused "arithmetic on nil", g,
        Run.bind_of_error (Board.drop_nowhere hheld hne (Or.inl rfl)), rfl,
        Or.inr ⟨hdrops, Or.inl rfl⟩⟩
    rcases y with _ | y
    · exact Or.inr ⟨.refused "arithmetic on nil", g,
        Run.bind_of_error (Board.drop_nowhere hheld hne (Or.inr rfl)), rfl,
        Or.inr ⟨hdrops, Or.inr rfl⟩⟩
    obtain ⟨x', y', id, hid, hrun⟩ := Pile.drop_apply h hkind hrefuses hheld hnil hitem fuel x y
    change (if Pile.refuses g self p = true then _ else _ : Action α Unit) g = _ at hrun
    rw [hrefuses, if_neg Bool.false_ne_true] at hrun
    exact .of_returns ⟨(), _, hrun, .tail (.single (.putBack (x := some x') (y := some y')
      hnowhere hheld hself hid hitem hne)) (.count _ self 1)⟩

/-- What is made is held by nobody. -/
theorem created_heldBy (L : Dict.Length Obj) (kind : Kind) (name : Bytes) (g : Game α) :
    ((g.created L (kind.entity name)).entities g.nextEntity).heldBy = none := by
  rw [created_self]
  rfl

/-- **What taking an item from a pile makes**: the item, in any case, and then
it is put into the hand if that is empty. -/
theorem Pile.takeItem_apply (L : Dict.Length Obj) {self : ℕ} {kind : Kind} {name : Bytes}
    (hcount : (g.entities self).count.isPositive = true)
    (hitem : (g.entities self).item = some (kind, name)) (who : Option ℕ) :
    Pile.takeItem L self who g =
      if kind.isToken then
        match who with
        | none => .error (.refused "index nil") (g.created L (kind.entity name))
        | some p => .ok () (Game.mapEntity self (fun v => { v with count := v.count.add (-1) })
            (match (g.people p).held with
              | none => g.taken L (kind.entity name) p
              | some _ => g.created L (kind.entity name)))
      else .error (.refused "call nil") (g.created L (kind.entity name)) := by
  have hheldBy := created_heldBy L kind name g
  show (if (g.entities self).count.isPositive = true then _ else _ : Action α Unit) g = _
  rw [if_pos hcount, hitem]
  show (newEntity L (kind.entity name) [] >>= fun item =>
    if kind.isToken = true then
      Token.pickup item who >>= fun _ =>
        Run.modify (Game.mapEntity self (fun v => { v with count := v.count.add (-1) }))
    else (Run.throw (.refused "call nil") >>= fun _ =>
      Run.modify (Game.mapEntity self (fun v => { v with count := v.count.add (-1) })) :
        Action α Unit)) g = _
  rw [Run.bind_of_ok (newEntity_apply L (Kind.blank kind name).id g)]
  by_cases htoken : kind.isToken = true
  swap
  · rw [if_neg htoken, if_neg htoken]
    rfl
  rw [if_pos htoken, if_pos htoken]
  rcases who with _ | p
  · exact Run.bind_of_error (Token.pickup_nobody hheldBy)
  · have hpick := Token.pickup_apply g.nextEntity p (g.created L (kind.entity name))
    rw [hheldBy, show (g.created L (kind.entity name)).people = g.people from rfl] at hpick
    rcases hheld : (g.people p).held with _ | item
    · rw [hheld] at hpick
      simp only [hheld]
      exact Run.bind_of_ok hpick
    · rw [hheld] at hpick
      simp only [hheld]
      exact Run.bind_of_ok hpick

/-- **Taking something from a pile**: what is made goes into the hand, if the
hand is empty. -/
theorem Pile.takeItem_ends (h : Sound P.fits g) {self : ℕ} {who : Option ℕ}
    (hwho : Asker P g who)
    (hmay : (g.entities self).count.isPositive = true → P.fresh (L.border g.objects + 1)
      ∧ ((∃ p, who = some p ∧ (g.people p).held = none) ∨ P.loses)) :
    Run.Ends (Pile.takeItem L self who) g (fun _ g' => Chain P L g g')
      (fun _ g' => Chain P L g g' ∧ Untouched g g' ∧ (who = none
        ∨ (g.entities self).count.isPositive = true ∧ (g.entities self).item = none)) := by
  by_cases hcount : (g.entities self).count.isPositive = true
  swap
  · refine Run.Ends.get_bind ?_
    rw [if_neg hcount]
    exact .pure .refl
  obtain ⟨hfresh, hcase⟩ := hmay hcount
  rcases hitem : (g.entities self).item with _ | ⟨kind, name⟩
  · refine Run.Ends.get_bind ?_
    rw [if_pos hcount, hitem]
    exact .throw ⟨.refl, .refl g, Or.inr ⟨hcount, rfl⟩⟩
  obtain rfl := h.stock self kind name hitem
  have hv := Kind.blank .goPiece name
  have hrun := Pile.takeItem_apply L hcount hitem who
  rw [if_pos (show Kind.goPiece.isToken = true from rfl)] at hrun
  -- the item is made before the pile looks for a hand: a guest loses it, and so does a full hand
  rcases who with _ | p
  · have hloses : P.loses := hcase.resolve_left (fun ⟨_, hp, _⟩ => absurd hp nofun)
    exact Or.inr ⟨_, _, hrun, .single (.stray hloses hv rfl hfresh),
      ⟨fun _ => rfl, fun e he => congrArg Entity.parent (created_of_ne L _ he.ne)⟩, Or.inl rfl⟩
  · rcases hheld : (g.people p).held with _ | item
    · simp only [hheld] at hrun
      exact .of_returns ⟨(), _, hrun, .tail (.single
        (.take (hwho.hand p rfl) hv rfl (hwho.made p rfl) hheld hfresh)) (.count _ self (-1))⟩
    · simp only [hheld] at hrun
      have hloses : P.loses := hcase.resolve_left (fun ⟨q, hq, hempty⟩ => by
        rw [← Option.some.inj hq, hheld] at hempty
        cases hempty)
      exact .of_returns ⟨(), _, hrun,
        .tail (.single (.stray hloses hv rfl hfresh)) (.count _ self (-1))⟩

/-! ## Boxes -/

/-- A box is opened. -/
theorem Change.openedBox (g : Game α) (e : ℕ) :
    Change P L g (g.mapEntity e (fun v => { v with opened := true })) :=
  .tweak (e := e) true (g.entities e).count

/-- **What opening a box may do**: it leaves its parent, and a script that has
not run yet makes a field and more. -/
structure GameBox.Opens (P : Policy) (g : Game α) (e : ℕ) (name : Bytes) : Prop where
  /-- The box leaves its parent. -/
  leaves : (g.entities e).parent ≠ none → P.nowhere
  /-- The script runs. -/
  runs : name ∉ g.loaded → P.fields ∧ ∀ k, g.objects.get k = none → P.fresh k

/-- **Opening a box.** -/
theorem GameBox.openBox_ends (hP : P.Hosts) (h : Sound P.fits g) {self : ℕ}
    (hself : g.Listed (.entity self)) (hbox : (g.entities self).kind = .box)
    (hopen : (g.entities self).opened = false → ∀ name, (g.entities self).game = some name →
      (name ∈ g.loaded ∨ name = bytes "chess" ∨ name = bytes "go") →
        GameBox.Opens P g self name) :
    Run.Ends (GameBox.openBox L self) g (fun _ g' => Chain P L g g')
      (fun _ g' => Chain P L g g' ∧ Untouched g g' ∧ (g.entities self).opened = false
        ∧ ((g.entities self).parent = none ∨ ∀ name, (g.entities self).game = some name →
          name ∉ g.loaded ∧ name ≠ bytes "chess" ∧ name ≠ bytes "go")) := by
  refine Run.Ends.get_bind ?_
  rcases hopened : (g.entities self).opened with _ | _
  swap
  · exact .pure .refl
  rcases hgame : (g.entities self).game with _ | name
  · exact .throw ⟨.refl, .refl g, rfl, Or.inr nofun⟩
  -- the script runs once, and one that is not there is an error
  have hgame' : Run.Ends (openGame L name) g
      (fun _ g' => Chain P L g g' ∧ Untouched g g' ∧ (g'.entities self).kind = .box
        ∧ ((g.entities self).parent ≠ none → P.nowhere))
      (fun _ g' => g' = g ∧ name ∉ g.loaded ∧ name ≠ bytes "chess" ∧ name ≠ bytes "go") := by
    by_cases hloaded : name ∈ g.loaded
    · refine .of_returns ⟨(), g, ?_, .refl, .refl g, hbox,
        (hopen hopened name hgame (Or.inl hloaded)).leaves⟩
      show (if name ∈ g.loaded then pure () else _ : Action α Unit) g = _
      rw [if_pos hloaded]
      rfl
    · by_cases hthere : name = bytes "chess" ∨ name = bytes "go"
      · have hopens := hopen hopened name hgame (Or.inr hthere)
        obtain ⟨hmay, hfree⟩ := hopens.runs hloaded
        exact (openGame_ends hP (Building.start h hfree) name (fun _ _ => hmay)).weaken
          (fun _ t hb => ⟨hb.chain, ⟨fun p => by rw [hb.people], hb.old⟩,
            ((h.later_of_chain hb.chain).kind self (h.entity self hself)).trans hbox,
            hopens.leaves⟩)
          (fun _ _ he => ⟨he.1, hloaded, he.2⟩)
      · obtain ⟨hchess, hgo⟩ := not_or.mp hthere
        refine Or.inr ⟨.moduleNotFound name, g, ?_, rfl, hloaded, hchess, hgo⟩
        show (if name ∈ g.loaded then pure () else _ : Action α Unit) g = _
        rw [if_neg hloaded]
        unfold boxScript
        rw [if_neg hchess, if_neg hgo]
        rfl
  show Run.Ends (openGame L name >>= fun _ =>
    Run.modify (Game.mapEntity self (fun v => { v with opened := true })) >>= fun _ =>
    Run.get >>= fun t => Run.assertSome (t.entities self).parent (.refused "index nil") >>=
    fun parent => remove parent self) g _ _
  refine Run.Ends.bind (M := fun _ g' => Chain P L g g' ∧ Untouched g g'
      ∧ (g'.entities self).kind = .box ∧ ((g.entities self).parent ≠ none → P.nowhere))
    (hgame'.weaken (fun _ _ hm => hm) ?_) ?_
  · rintro _ _ ⟨rfl, hname⟩
    refine ⟨.refl, .refl _, rfl, Or.inr (fun n hn => ?_)⟩
    rw [← Option.some.inj hn]
    exact hname
  · rintro _ g' ⟨hc, hunt, hbox', hleaves⟩
    have hc' := hc.tail (.openedBox g' self)
    show Run.Ends (Run.assertSome ((g'.mapEntity self (fun v => { v with opened := true })).entities
      self).parent (.refused "index nil") >>= fun parent => remove parent self)
      (g'.mapEntity self (fun v => { v with opened := true })) _ _
    -- the script leaves the box where it is
    have hparent : ∀ e, e < g.nextEntity → ((g'.mapEntity self
        (fun v => { v with opened := true })).entities e).parent = (g.entities e).parent :=
      fun e he => by
        rw [mapEntity_eq, ← hunt.parent e he]
        refine changeAt_field Entity.parent ?_ _ _ _
        exact fun _ => rfl
    have hkind : ((g'.mapEntity self (fun v => { v with opened := true })).entities self).kind
        = .box := by
      rw [mapEntity_eq, ← hbox']
      refine changeAt_field Entity.kind ?_ _ _ _
      exact fun _ => rfl
    have hsame := hparent self (h.entity self hself)
    rw [hsame]
    rcases hp : (g.entities self).parent with _ | p
    · exact .throw ⟨hc', ⟨hunt.held, hparent⟩, rfl, Or.inl rfl⟩
    · rw [hp] at hsame
      have hnowhere : P.nowhere := hleaves (by rw [hp]; nofun)
      exact .of_returns ⟨(), _, remove_apply hsame, hc'.tail (.takeOut hnowhere hkind hsame)⟩

/-! ## Requests -/

/-- **What a request has to be like** for its method not to raise. -/
structure Fit (g : Game α) (e : ℕ) (method : Method) (who : Option ℕ) (x y : Option ℚ) :
    Prop where
  /-- The class has the method. -/
  action : method ∈ (g.entities e).kind.actions
  /-- It is a player who asks. -/
  asked : who ≠ none
  /-- A drop that looks at its coordinates has some. -/
  coordinates : method = .drop → Drops g e who → x ≠ none ∧ y ≠ none
  /-- A chess piece that something is dropped on stands somewhere. -/
  parent : method = .drop → (g.entities e).kind = .chessPiece → (g.entities e).parent ≠ none
  /-- What is dropped on a pile is there. -/
  hand : method = .drop → (g.entities e).kind = .pile → ∀ p, who = some p →
    (g.people p).held ≠ none
  /-- What is taken from a pile has a class. -/
  item : method = .takeItem → (g.entities e).count.isPositive = true → (g.entities e).item ≠ none
  /-- A box that is not open stands somewhere, and is one there is. -/
  box : method = .openBox → (g.entities e).opened = false →
    (g.entities e).parent ≠ none ∧ ∃ name, (g.entities e).game = some name ∧
      (name ∈ g.loaded ∨ name = bytes "chess" ∨ name = bytes "go")

instance (g : Game α) (self : ℕ) (who : Option ℕ) : Decidable (Drops g self who) :=
  decidable_of_iff ((g.entities self).kind = .chessPiece
      ∧ (∃ board ∈ (g.entities self).parent, (g.entities board).kind = .chessBoard)
    ∨ (g.entities self).kind ≠ .chessPiece ∧ ∃ p ∈ who, ∃ item ∈ (g.people p).held,
      item ≠ self ∧ ((g.entities self).kind = .pile → Pile.refuses g self p = false))
    ⟨fun h => h.elim (fun ⟨hk, _, hp, hb⟩ => .piece hk hp hb)
      (fun ⟨hk, _, hw, _, hi, hne, hr⟩ => .held hk hw hi hne hr),
    fun h => h.casesOn (fun hk hp hb => Or.inl ⟨hk, _, hp, hb⟩)
      (fun hk hw hi hne hr => Or.inr ⟨hk, _, hw, _, hi, hne, hr⟩)⟩

set_option synthInstance.maxSize 256 in
instance (g : Game α) (e : ℕ) (method : Method) (who : Option ℕ) (x y : Option ℚ) :
    Decidable (Fit g e method who x y) :=
  decidable_of_iff (method ∈ (g.entities e).kind.actions ∧ who ≠ none
    ∧ (method = .drop → Drops g e who → x ≠ none ∧ y ≠ none)
    ∧ (method = .drop → (g.entities e).kind = .chessPiece → (g.entities e).parent ≠ none)
    ∧ (method = .drop → (g.entities e).kind = .pile → ∀ p ∈ who, (g.people p).held ≠ none)
    ∧ (method = .takeItem → (g.entities e).count.isPositive = true → (g.entities e).item ≠ none)
    ∧ (method = .openBox → (g.entities e).opened = false → (g.entities e).parent ≠ none
      ∧ ∃ name ∈ (g.entities e).game,
        g.loaded.contains name = true ∨ name = bytes "chess" ∨ name = bytes "go"))
    (by
      simp only [List.contains_iff_mem]
      exact ⟨fun ⟨h₁, h₂, h₃, h₄, h₅, h₆, h₇⟩ => ⟨h₁, h₂, h₃, h₄, h₅, h₆, h₇⟩,
        fun h => ⟨h.action, h.asked, h.coordinates, h.parent, h.hand, h.item, h.box⟩⟩)

/-- **Whether a request makes the rarer changes only that may occur.** -/
structure Allows (P : Policy) (L : Dict.Length Obj) (g : Game α) (e : ℕ) (method : Method)
    (who : Option ℕ) : Prop where
  /-- A pile takes something back. -/
  back : method = .drop → (g.entities e).kind = .pile → ∀ p, who = some p →
    Pile.TakesBack g e p → P.nowhere ∧ P.Bare
  /-- Something is taken from a pile. -/
  take : method = .takeItem → (g.entities e).kind = .pile →
    (g.entities e).count.isPositive = true → P.fresh (L.border g.objects + 1)
      ∧ ((∃ p, who = some p ∧ (g.people p).held = none) ∨ P.loses)
  /-- A box is opened. -/
  box : method = .openBox → (g.entities e).kind = .box → (g.entities e).opened = false →
    ∀ name, (g.entities e).game = some name →
      (name ∈ g.loaded ∨ name = bytes "chess" ∨ name = bytes "go") → GameBox.Opens P g e name

/-- **A request is a sequence of changes**, whether its method returns or
raises – and it raises only if the request is not fit. -/
theorem act_ends (hP : P.Hosts) (h : Sound P.fits g) {self : ℕ} (hself : g.Listed (.entity self))
    {method : Method} {who : Option ℕ} (hwho : Asker P g who)
    (hmay : Allows P L g self method who) (fuel : ℕ) (x y : Option ℚ) :
    Run.Ends (act L (fuel + 1) self method who x y) g (fun _ g' => Chain P L g g')
      (fun _ g' => Chain P L g g' ∧ Untouched g g' ∧ ¬Fit g self method who x y) := by
  refine Run.Ends.get_bind ?_
  show Run.Ends (if method ∈ (g.entities self).kind.actions then _ else _ : Action α Unit) g _ _
  by_cases haction : method ∈ (g.entities self).kind.actions
  swap
  · rw [if_neg haction]
    exact .throw ⟨.refl, .refl g, fun hfit => haction hfit.action⟩
  rw [if_pos haction]
  -- the class decides what runs: a drop has a method of its own on a chess piece and on a pile
  cases method with
  | pickup =>
    refine (Token.pickup_ends hself ?_ hwho).weaken (fun _ _ hc => hc)
      (fun _ _ hc => by
        obtain ⟨rfl, hnone⟩ := hc
        exact ⟨.refl, .refl _, fun hfit => hfit.asked hnone⟩)
    revert haction
    cases (g.entities self).kind <;> decide
  | drop =>
    show Run.Ends (if (g.entities self).kind = .chessPiece then _ else _ : Action α Unit) g _ _
    by_cases hpiece : (g.entities self).kind = .chessPiece
    · rw [if_pos hpiece]
      refine (Piece.drop_ends hP h hself hpiece hwho x y).weaken (fun _ _ hc => hc) ?_
      rintro _ _ ⟨rfl, hcase⟩
      refine ⟨.refl, .refl _, fun hfit => ?_⟩
      rcases hcase with hnone | hparent | ⟨hdrops, hxy⟩
      · exact hfit.asked hnone
      · exact hfit.parent rfl hpiece hparent
      · exact hxy.elim (hfit.coordinates rfl hdrops).1 (hfit.coordinates rfl hdrops).2
    rw [if_neg hpiece]
    by_cases hpile : (g.entities self).kind = .pile
    · rw [if_pos hpile]
      refine (Pile.drop_ends h hself hpile (hmay.back rfl hpile) fuel x y).weaken
        (fun _ _ hc => hc) ?_
      rintro _ _ ⟨rfl, hcase⟩
      refine ⟨.refl, .refl _, fun hfit => ?_⟩
      rcases hcase with hempty | ⟨hdrops, hxy⟩
      · obtain ⟨p, hp⟩ := Option.ne_none_iff_exists'.mp hfit.asked
        exact hfit.hand rfl hpile p hp (hempty p hp)
      · exact hxy.elim (hfit.coordinates rfl hdrops).1 (hfit.coordinates rfl hdrops).2
    · rw [if_neg hpile]
      refine (Board.drop_ends hP h hself ?_ who x y).weaken (fun _ _ hc => hc) ?_
      · revert haction hpiece hpile
        cases (g.entities self).kind <;> decide
      · rintro _ _ ⟨rfl, hcase⟩
        refine ⟨.refl, .refl _, fun hfit => ?_⟩
        rcases hcase with hnone | ⟨hdrops, hxy⟩
        · exact hfit.asked hnone
        · exact hxy.elim (hfit.coordinates rfl hdrops).1 (hfit.coordinates rfl hdrops).2
  | takeItem =>
    have hpile : (g.entities self).kind = .pile := by
      revert haction
      cases (g.entities self).kind <;> decide
    refine (Pile.takeItem_ends h hwho (hmay.take rfl hpile)).weaken (fun _ _ hc => hc) ?_
    rintro _ _ ⟨hc, hunt, hcase⟩
    exact ⟨hc, hunt, fun hfit => hcase.elim hfit.asked (fun h => hfit.item rfl h.1 h.2)⟩
  | openBox =>
    have hbox : (g.entities self).kind = .box := by
      revert haction
      cases (g.entities self).kind <;> decide
    refine (GameBox.openBox_ends hP h hself hbox (hmay.box rfl hbox)).weaken (fun _ _ hc => hc) ?_
    rintro _ _ ⟨hc, hunt, hopened, hcase⟩
    refine ⟨hc, hunt, fun hfit => ?_⟩
    obtain ⟨hparent, name, hname, hthere⟩ := hfit.box rfl hopened
    rcases hcase with hnone | hnot
    · exact hparent hnone
    · rcases hthere with hloaded | hchess | hgo
      · exact (hnot name hname).1 hloaded
      · exact (hnot name hname).2.1 hchess
      · exact (hnot name hname).2.2 hgo

/-! ## Coming and going -/

/-- **Whether a player who comes may come**: a new one gets an id, and one who
is known may have other colours. -/
structure Comes (P : Policy) (L : Dict.Length Obj) (s : Game α) (name : Bytes)
    (r g b : Value α) : Prop where
  /-- A new player. -/
  fresh : s.players.get name = none → P.fresh (L.border s.objects + 1)
  /-- One who is known. -/
  colours : ∀ p, s.players.get name = some p → s.returned p name r g b ≠ s → P.colours

/-- The player of that name is found, or made: nobody else comes. -/
theorem findPlayer_changes {s : Game α} {name : Bytes} {r g b : Value α}
    (hmay : Comes P L s name r g b) :
    Run.Returns (findPlayer L name r g b) s (fun p s' => Chain P L s s'
      ∧ s'.players.get name = some p
      ∧ ∀ n q, s'.players.get n = some q → n = name ∨ s.players.get n = some q) := by
  refine Run.Returns.get_bind ?_
  rcases hp : s.players.get name with _ | p
  · refine ⟨s.nextPlayer, s.seated name r g b (L.border s.objects + 1), ?_,
      .single (.join hp (hmay.fresh hp)), Dict.get_set_self _ _ _, fun n q hq => ?_⟩
    · show (newPlayer L name r g b >>= _) s = _
      have hid : (s.born ⟨name, none, none, r, g, b⟩).idOf (.player s.nextPlayer) = none := by
        show ((s.born ⟨name, none, none, r, g, b⟩).people s.nextPlayer).id = none
        rw [born_people, if_pos rfl]
      have hnew : newPlayer L name r g b s = .ok s.nextPlayer ((s.born
          ⟨name, none, none, r, g, b⟩).enrolled (.player s.nextPlayer)
          (L.border s.objects + 1)) := by
        show (addObject L (.player s.nextPlayer) >>= _) (s.born ⟨name, none, none, r, g, b⟩) = _
        rw [Run.bind_of_ok (addObject_new L hid)]
        rfl
      rw [Run.bind_of_ok hnew]
      rfl
    · have hq' : (s.players.set name s.nextPlayer).get n = some q := hq
      rw [Dict.get_set] at hq'
      split_ifs at hq' with hn
      · exact Or.inl hn
      · exact Or.inr hq'
  · exact ⟨p, _, rfl, .single (.back hp (hmay.colours p hp)), hp, fun _ _ hq => Or.inr hq⟩

/-- **A player comes.** -/
theorem addPlayer_changes {s : Game α} {name : Bytes} {r g b : Value α}
    (hmay : Comes P L s name r g b) :
    Run.Returns (addPlayer L name r g b) s (fun p s' => Chain P L s s'
      ∧ s'.players.get name = some p) := by
  refine Run.Returns.bind (findPlayer_changes hmay) ?_
  rintro p s' ⟨hc, hp, -⟩
  exact ⟨p, _, rfl, hc.tail (.announce hp), hp⟩

/-- **A player leaves.** -/
theorem Player.disconnect_changes (p : ℕ) (g : Game α)
    (hmay : ∀ e, (g.people p).held = some e → (g.entities e).parent = none → P.loses) :
    Run.Returns (Player.disconnect p) g
      (fun _ g' => Chain P L g g' ∧ (g'.people p).held = none) := by
  refine Run.Returns.bind (M := fun _ g' => Chain P L g g' ∧ (g'.people p).held = none) ?_ ?_
  · refine Run.Returns.get_bind ?_
    rcases hheld : (g.people p).held with _ | item
    · exact .pure ⟨.refl, hheld⟩
    · refine ⟨(), _, rfl, .single (.letGo hheld (hmay item hheld)), ?_⟩
      show (((g.withHeldBy item none).withHeld p none).people p).held = none
      rw [withHeld_people, if_pos rfl]
  · rintro _ g' ⟨hc, hheld⟩
    exact ⟨(), _, rfl, hc.tail (.say rfl), hheld⟩

end Server

end Felt
