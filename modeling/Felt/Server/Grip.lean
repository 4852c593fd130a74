import Felt.Server.Delivery
import Felt.Server.Fixtures
import Felt.Server.Linked

/-!
# Whose hand is whose

A hand is filled and emptied by its player. Whatever the others ask for, say
or do, and whoever comes or leaves, a player who stays logged in holds what
they held (`held_of_leaves`): no method of the shipped classes touches the hand
of somebody else, no script touches a hand, and two workers that are logged in
are not those of the same player.

That two workers do not share a player is an invariant of its own
(`State.Introduced`): a player is looked up by its name, and a name is free when
somebody logs in under it. It fails if somebody logs in twice on one connection,
which the runs here leave out.
-/

namespace Felt

namespace Server

open Box (Point)

variable {α : Type} {L : Dict.Length Obj} {g g' : Game α} {p q : ℕ} {item : Option ℕ}

/-! ## What leaves a hand alone -/

/-- **`p` was made, and holds `item`.** -/
def Holds (p : ℕ) (item : Option ℕ) (g : Game α) : Prop :=
  p < g.nextPlayer ∧ (g.people p).held = item

theorem Holds.same (h : Holds p item g) (hnext : g'.nextPlayer = g.nextPlayer)
    (hheld : (g'.people p).held = (g.people p).held) : Holds p item g' :=
  ⟨hnext.symm ▸ h.1, hheld.trans h.2⟩

theorem holds_send (call : (Obj → Packed) → Call α) :
    Run.Keeps (Holds p item) (send call : Action α Unit) := .modify (fun _ h => h)

theorem holds_setHeldBy (e : ℕ) (who : Option ℕ) :
    Run.Keeps (Holds p item) (setHeldBy e who : Action α Unit) :=
  .bind (.modify (fun g h => by
    rw [mapEntity_eq]
    exact h)) (fun _ => holds_send _)

/-- The hand of somebody else. -/
theorem holds_setHeld (hq : q ≠ p) (i : Option ℕ) :
    Run.Keeps (Holds p item) (setHeld q i : Action α Unit) := by
  intro g h
  have hsame : ((g.withHeld q i).people p).held = (g.people p).held := by
    rw [withHeld_people, if_neg hq.symm]
  exact h.same rfl hsame

theorem holds_moveto (self : ℕ) (parent : Option ℕ) (x y : Option ℚ) :
    Run.Keeps (Holds p item) (moveto self parent x y : Action α Unit) := by
  intro g h
  rw [moveto_apply]
  exact h

theorem holds_enrolled (h : Holds p item g) (o : Obj) (id : ℕ) :
    Holds p item (g.enrolled o id) :=
  h.same (enrolled_rest o id).2.2.2 (enrolled_links o id 0 p).2.2.2.2.1

theorem holds_addObject (L : Dict.Length Obj) (o : Obj) :
    Run.Keeps (Holds p item) (addObject L o : Action α Unit) := by
  intro g h
  rcases addObject_cases L o g with ⟨id, hid⟩ | herr
  · rw [hid]
    exact holds_enrolled h o id
  · rw [herr]
    exact h

/-- **Scripts leave hands alone.** -/
theorem scripted_holds (L : Dict.Length Obj) (p : ℕ) (item : Option ℕ) :
    Scripted L (Holds p item (α := α)) where
  said := holds_send
  created g v _ h := holds_enrolled (g := g.alloc v) h _ _
  added o := holds_addObject L o
  moved _ _ _ _ _ h := h
  changed g e f _ _ h := by
    rw [mapEntity_eq]
    exact h
  named _ _ _ h := h
  loaded _ _ h := h

/-! ## What the others do -/

section Others

variable {who : Option ℕ}

theorem holds_pickup (hwho : who ≠ some p) (self : ℕ) :
    Run.Keeps (Holds p item) (Token.pickup self who : Action α Unit) := by
  refine .get_bind (fun g => ?_)
  cases (g.entities self).heldBy with
  | some _ => exact .pure ()
  | none =>
    refine .assertSome_bind (fun q hq => ?_)
    have hne : q ≠ p := fun h => hwho (hq.trans (congrArg some h))
    cases (g.people q).held with
    | some _ => exact .pure ()
    | none =>
      exact .bind (holds_setHeld hne _) (fun _ => .bind (holds_setHeldBy _ _) (fun _ =>
        .get_bind (fun _ => holds_send _)))

theorem holds_playerDrop (hq : q ≠ p) (onto : ℕ) (x y : Option ℚ) :
    Run.Keeps (Holds p item) (Player.drop q onto x y : Action α Unit) :=
  .get_bind (fun _ => .bind (.assertSome _ _) (fun _ => .bind (holds_setHeld hq _) (fun _ =>
    .bind (holds_setHeldBy _ _) (fun _ => .bind (holds_moveto _ _ _ _) (fun _ =>
      .get_bind (fun _ => holds_send _))))))

theorem holds_boardDrop (hwho : who ≠ some p) (self : ℕ) (x y : Option ℚ) :
    Run.Keeps (Holds p item) (Board.drop self who x y : Action α Unit) := by
  refine .get_bind (fun g => .assertSome_bind (fun q hq => ?_))
  have hne : q ≠ p := fun h => hwho (hq.trans (congrArg some h))
  cases (g.people q).held with
  | none => exact .pure ()
  | some i =>
    show Run.Keeps _ (if _ then _ else _)
    split_ifs
    · exact .pure ()
    · exact .bind (.assertSome _ _) (fun _ => .bind (.assertSome _ _) (fun _ =>
        holds_playerDrop hne _ _ _))

theorem holds_pieceDrop (hwho : who ≠ some p) (self : ℕ) (x y : Option ℚ) :
    Run.Keeps (Holds p item) (Piece.drop self who x y : Action α Unit) := by
  refine .get_bind (fun g => .bind (.assertSome _ _) (fun parent => ?_))
  show Run.Keeps _ (if _ then _ else _)
  split_ifs
  · exact .bind (.assertSome _ _) (fun _ => .bind (.assertSome _ _) (fun _ =>
      .bind (holds_boardDrop hwho _ _ _) (fun _ => holds_pickup hwho _)))
  · exact .pure ()

/-- Deleting leaves hands alone, to whatever depth. -/
theorem holds_delete (fuel : ℕ) :
    (∀ e, Run.Keeps (Holds p item) (delete fuel e : Action α Unit))
      ∧ ∀ e todo i, Run.Keeps (Holds p item) (deleteChildren fuel e todo i : Action α Unit) := by
  induction fuel with
  | zero =>
    refine ⟨fun e g h => ?_, fun e todo i => ?_⟩
    · rw [delete]
      trivial
    · cases todo with
      | zero =>
        rw [deleteChildren]
        exact .pure ()
      | succ todo =>
        intro g h
        rw [deleteChildren]
        trivial
  | succ fuel ih =>
    refine ⟨fun e => ?_, fun e todo i => ?_⟩
    · rw [delete]
      exact .get_bind (fun _ => .bind (ih.2 _ _ _) (fun _ => .bind (holds_moveto _ _ _ _)
        (fun _ => .bind (holds_send _) (fun _ => .get_bind (fun _ =>
          .bind (.assertSome _ _) (fun _ => .modify (fun _ h => h)))))))
    · cases todo with
      | zero =>
        rw [deleteChildren]
        exact .pure ()
      | succ todo =>
        rw [deleteChildren]
        refine .get_bind (fun g => ?_)
        cases (g.entities e).children[i]? with
        | none => exact .pure ()
        | some child => exact .bind (ih.1 _) (fun _ => ih.2 _ _ _)

theorem holds_mapEntity (g : Game α) (e : ℕ) (f : Entity → Entity) (h : Holds p item g) :
    Holds p item (g.mapEntity e f) := by
  rw [mapEntity_eq]
  exact h

theorem holds_pileDrop (hwho : who ≠ some p) (fuel self : ℕ) (x y : Option ℚ) :
    Run.Keeps (Holds p item) (Pile.drop fuel self who x y : Action α Unit) := by
  refine .get_bind (fun g => .bind (.assertSome _ _) (fun q => ?_))
  show Run.Keeps _ (if _ then _ else _)
  split_ifs
  · exact .pure ()
  · exact .bind (holds_boardDrop hwho _ _ _) (fun _ => .get_bind (fun _ =>
      .bind (.assertSome _ _) (fun _ => .bind ((holds_delete fuel).1 _) (fun _ =>
        .modify (fun _ => holds_mapEntity _ _ _)))))

theorem holds_takeItem (L : Dict.Length Obj) (hwho : who ≠ some p) (self : ℕ) :
    Run.Keeps (Holds p item) (Pile.takeItem L self who : Action α Unit) := by
  refine .get_bind (fun g => ?_)
  show Run.Keeps _ (if _ then _ else _)
  split_ifs
  · refine .bind (.assertSome _ _) (fun a => .bind ((scripted_holds L p item).newEntity rfl)
      (fun e => ?_))
    have hcount : ∀ n, Run.Keeps (Holds p item) (Run.modify (Game.mapEntity self
        (fun v => { v with count := v.count.add n })) : Action α Unit) := fun n =>
      .modify (fun _ => holds_mapEntity _ _ _)
    by_cases htoken : a.1.isToken = true
    · simp only [if_pos htoken]
      exact .bind (holds_pickup hwho e) (fun _ => hcount (-1))
    · simp only [if_neg htoken]
      exact .bind (.throw _) (fun _ => hcount (-1))
  · exact .pure ()

/-- **No request touches the hand of somebody else.** -/
theorem holds_act (L : Dict.Length Obj) (hwho : who ≠ some p) (fuel e : ℕ) (method : Method)
    (x y : Option ℚ) :
    Run.Keeps (Holds p item) (act L fuel e method who x y : Action α Unit) := by
  refine .get_bind (fun g => ?_)
  by_cases haction : method ∈ (g.entities e).kind.actions
  swap
  · simp only [if_neg haction]
    exact .throw _
  simp only [if_pos haction]
  cases method with
  | pickup => exact holds_pickup hwho e
  | drop =>
    dsimp only
    split_ifs
    · exact holds_pieceDrop hwho e x y
    · exact holds_pileDrop hwho fuel e x y
    · exact holds_boardDrop hwho e x y
  | takeItem => exact holds_takeItem L hwho e
  | openBox => exact (scripted_holds L p item).openBox e

theorem holds_disconnect (hq : q ≠ p) :
    Run.Keeps (Holds p item) (Player.disconnect q : Action α Unit) := by
  refine .bind (.get_bind (fun g => ?_)) (fun _ => .get_bind (fun _ => holds_send _))
  cases (g.people q).held with
  | none => exact .pure ()
  | some i => exact .bind (holds_setHeldBy _ _) (fun _ => holds_setHeld hq _)

/-- A player who is made has an empty hand, and is nobody who was there. -/
theorem holds_newPlayer (L : Dict.Length Obj) (name : Bytes) (r b c : Value α) :
    Run.Keeps (Holds p item) (newPlayer L name r b c : Action α ℕ) := by
  intro g h
  have hborn : Holds p item (g.born ⟨name, none, none, r, b, c⟩) := by
    refine ⟨h.1.trans (Nat.lt_succ_self _), ?_⟩
    rw [born_people, if_neg h.1.ne]
    exact h.2
  have hrest : Run.Keeps (Holds p item) (addObject L (.player g.nextPlayer) >>= fun _ =>
      (pure g.nextPlayer : Action α ℕ)) :=
    .bind (holds_addObject L _) (fun _ => .pure _)
  exact hrest _ hborn

/-- **Whoever comes**, it is with an empty hand, or with what they hold. -/
theorem holds_addPlayer (L : Dict.Length Obj) (name : Bytes) (r b c : Value α) :
    Run.Keeps (Holds p item) (addPlayer L name r b c : Action α ℕ) := by
  refine .bind (.get_bind (fun g => ?_)) (fun _ => .bind (holds_send _) (fun _ => .pure _))
  cases g.players.get name with
  | some q =>
    exact .bind (.modify (fun g h => h.same rfl (returned_held q name r b c p))) (fun _ =>
      .pure _)
  | none =>
    exact .bind (holds_newPlayer L name r b c) (fun _ => .bind (.modify (fun _ h => h)) (fun _ =>
      .pure _))

end Others

/-! ## Whose player is whose -/

section Introduced

variable {P : Policy} {S : Site} {fuel : ℕ} {s s' : State (Point Obj)} {w : ℕ}

/-- **The player of a worker is the game's**, under the name the worker has. -/
def State.Introduced (s : State (Point Obj)) : Prop :=
  ∀ w p, (s.workers w).player = some p → s.game.players.get (s.workers w).name = some p

theorem State.Introduced.later (h : s.Introduced) (hlater : Later s.game s'.game)
    (hplayer : ∀ w, (s'.workers w).player = (s.workers w).player)
    (hname : ∀ w, (s'.workers w).name = (s.workers w).name) : s'.Introduced := by
  intro w p hp
  rw [hname]
  exact hlater.players _ _ (h w p ((hplayer w).symm.trans hp))

theorem State.Introduced.settle {g : Game (Point Obj)} (h : s.Introduced)
    (hlater : Later s.game g) : (s.settle g).Introduced :=
  h.later (hlater.trans (later_settled g)) (SameTables.settle s g).player
    (SameTables.settle s g).name

theorem State.Introduced.left {L : Dict.Length Obj} (h : s.Introduced)
    (hsound : Sound P.fits s.game) (hl : Left P L w s s') : s'.Introduced := by
  cases hl with
  | guest _ => exact h
  | @player p g _ _ hc _ =>
    have hparted : (s.parted w).Introduced := h
    exact hparted.settle (hsound.later_of_chain hc)
  | impostor _ _ => exact h

theorem State.Introduced.popped (h : s.Introduced) : (s.popped w).Introduced :=
  h.later (.refl _) (SameTables.mapQueue s w (List.drop 1)).player
    (SameTables.mapQueue s w (List.drop 1)).name

/-- **Every deed keeps that.** -/
theorem State.Introduced.done (h : s.Introduced) (hm : Manned P s) {d : Deed}
    (hd : Done P S s d s') : s'.Introduced := by
  cases hd with
  | joined hj =>
    intro v p hp
    by_cases hv : v = s.nextWorker
    · rw [hv, hj.guest] at hp
      cases hp
    · rw [hj.worker v hv] at hp ⊢
      rw [hj.game]
      exact h v p hp
  | missed => exact h
  | refused hl => exact h.left hm.sound hl
  | @welcomed w p name _ _ _ _ g' _ _ hc hp =>
    intro v q hq
    rw [welcomed_player] at hq
    rw [welcomed_name]
    split_ifs at hq ⊢ with hv
    · exact Option.some.inj hq ▸ hp
    · exact (hm.sound.later_of_chain hc).players _ _ (h v q hq)
  | said => exact h.settle (SameObjects.say _ _).later
  | left hl => exact h.left hm.sound hl
  | acted hc => exact h.settle (hm.sound.later_of_chain hc)
  | failed _ hc _ hl =>
    exact (h.settle (hm.sound.later_of_chain hc)).left (hm.settle hc).sound hl
  | idle _ => exact h
  | sent _ => exact h.popped
  | broken _ hl => exact h.popped.left hm.popped.sound hl

theorem introduced_of_played {ok : Deed → State (Point Obj) → Prop} {games : List Bytes}
    (hs : Played S fuel ok (State.opening S games) s) : s.Introduced := by
  induction hs with
  | start => exact fun _ _ hp => by cases hp
  | deed d hs hd _ hl ih =>
    have hm := manned_of_played hs
    exact ih.done hm (done_of_leaves (hosts_of_below (P := Policy.shipped) rfl) hm.sound hm.staff hd
      (may_shipped d _) hl)

/-- **Two workers that are logged in** are not those of one player. -/
theorem State.Introduced.eq_of_player (h : s.Introduced) (hm : Manned P s) (hi : Seats s) {v p : ℕ}
    (hw : s.Registered w) (hv : s.Registered v) (hpw : (s.workers w).player = some p)
    (hpv : (s.workers v).player = some p) : v = w := by
  have hname : (s.workers v).name = (s.workers w).name :=
    ((hm.sound.players _ p (h v p hpv)).2).symm.trans (hm.sound.players _ p (h w p hpw)).2
  have hvseat := hi.player v p hv hpv
  rw [hname, hi.player w p hw hpw] at hvseat
  exact (Option.some.inj hvseat).symm

end Introduced

/-! ## Nobody else's hand -/

section Hand

variable {S : Site} {fuel : ℕ} {s s' : State (Point Obj)} {v w : ℕ}

/-- **The hand of `p`, when `v` is not the worker of `p`.** -/
def Aloof (v p : ℕ) (item : Option ℕ) (s : State (Point Obj)) : Prop :=
  Holds p item s.game ∧ (s.workers v).player ≠ some p

theorem aloof_onGame {β : Type} {x : Action (Point Obj) β} (hx : Run.Keeps (Holds p item) x) :
    Run.Keeps (Aloof v p item) (onGame x) := by
  intro s hs
  unfold onGame
  rcases h : x s.game with ⟨b, g⟩ | ⟨e, g⟩ | _
  · have hg : Holds p item g := hx.ok hs.1 h
    exact ⟨hg, (SameTables.settle s g).player v ▸ hs.2⟩
  · have hg : Holds p item g := Run.Triple.error hx hs.1 h
    exact ⟨hg, (SameTables.settle s g).player v ▸ hs.2⟩
  · trivial

/-- **Somebody else leaves.** -/
theorem aloof_unregister (v : ℕ) : Run.Keeps (Aloof v p item) (unregister v) := by
  refine .bind (.modify (fun _ h => h)) (fun _ => .bind ?_ (fun _ => .modify (fun _ h => h)))
  refine Run.Triple.get_bind (fun s hs => ?_)
  refine Run.Triple.weaken (P := Aloof v p item) ?_ (fun _ ht => ht ▸ hs) (fun _ _ ht => ht)
    (fun _ _ ht => ht)
  cases s.players.get (s.workers v).name with
  | none => exact Run.Keeps.pure ()
  | some _ =>
    refine Run.Keeps.assertSome_bind (fun q hq => .bind (aloof_onGame (holds_disconnect ?_))
      (fun _ => .modify (fun _ h => h)))
    rintro rfl
    exact hs.2 hq

/-- What is known of `t`, with which something begins, is known of the state. -/
theorem aloof_at {x : Handler (Point Obj) Unit} {t : State (Point Obj)} (ht : Aloof v p item t)
    (hx : Run.Keeps (Aloof v p item) x) :
    Run.Triple (· = t) x (fun _ => Aloof v p item) (fun _ => Aloof v p item) :=
  hx.weaken (fun _ h => h ▸ ht) (fun _ _ h => h) (fun _ _ h => h)

theorem aloof_act (v e : ℕ) (method : Method) (x y : Option ℚ) :
    Run.Keeps (Aloof v p item) ((Deed.act v e method x y).handler S fuel) :=
  Run.Triple.get_bind (fun _ ht => aloof_at ht (.xpcall (aloof_onGame (holds_act S.length ht.2 _ e
    method x y)) (fun _ => aloof_unregister v)))

theorem aloof_sendOne (v : ℕ) (accepted : Bool) :
    Run.Keeps (Aloof v p item) (sendOne v accepted) := by
  refine .get_bind (fun t => ?_)
  show Run.Keeps _ (if _ then _ else _)
  split_ifs
  · exact .pure ()
  refine .xpcall (.bind (.modify (fun t ht => ⟨ht.1, ?_⟩)) (fun _ => ?_))
    (fun _ => aloof_unregister v)
  · rw [(SameTables.mapQueue t v (List.drop 1)).player]
    exact ht.2
  · show Run.Keeps _ (if _ then _ else _)
    split_ifs
    · exact .pure ()
    · exact .throw _

/-- What is no request, and is not about hands. -/
theorem gripped_onGame {β : Type} {x : Action (Point Obj) β} (hx : Run.Keeps (Holds p item) x) :
    Run.Keeps (fun t : State (Point Obj) => Holds p item t.game) (onGame x) :=
  onGame_triple (fun _ h => h) hx

/-- **Somebody else logs in.** -/
theorem gripped_login (v : ℕ) (name pass r b c : Value (Point Obj)) :
    Run.Triple (Aloof v p item) (login S v name pass r b c) (fun _ t => Holds p item t.game)
      (fun _ t => Holds p item t.game) := by
  refine Run.Triple.get_bind (fun t ht => ?_)
  have hleave : Run.Triple (· = t) (disconnect v) (fun _ t => Holds p item t.game)
      (fun _ t => Holds p item t.game) :=
    (aloof_at ht (aloof_unregister v)).weaken (fun _ h => h) (fun _ _ h => h.1) (fun _ _ h => h.1)
  have hwelcome : ∀ n, Run.Keeps (fun t : State (Point Obj) => Holds p item t.game)
      (welcome S v n r b c) := fun n =>
    .bind (gripped_onGame (holds_addPlayer S.length n r b c)) (fun _ =>
      .bind (.modify (fun _ h => h)) (fun _ => .bind (.modify (fun _ h => h)) (fun _ =>
        gripped_onGame (holds_send _))))
  cases name with
  | string n =>
    show Run.Triple _ (if _ then _ else if _ then _ else _) _ _
    split_ifs
    · exact hleave
    · exact hleave
    · exact (hwelcome n).weaken (fun _ h => h ▸ ht.1) (fun _ _ h => h) (fun _ _ h => h)
  | _ => exact hleave

/-- **Whoever has a player keeps it**, and is logged in only if they were. -/
theorem player_of_leaves (hi : Seats s) (hunmade : (s.workers s.nextWorker).player = none)
    (hempty : (s.workers s.nextWorker).sendq = []) (hp : (s.workers w).player = some p) {d : Deed}
    (hd : d.Possible s) (honce : d.Once S s) (hl : (d.handler S fuel).Leaves s s') :
    (s'.workers w).player = some p ∧ (s'.LoggedIn w → s.LoggedIn w) := by
  have hstep : Stepped S s (d.happening S fuel) s' := by
    refine stepped_of_leaves hi hunmade hempty (Deed.possible_happening hd)
      (Deed.once_happening honce) ?_
    rw [Deed.handler_happening]
    exact hl
  -- only guests are welcomed
  have hjoins : ¬Feed.Joins w ((d.happening S fuel).log S s) := fun hjoins => by
    have hguest := (hstep.joins w hjoins).2.1
    rw [hp] at hguest
    cases hguest
  exact ⟨(hstep.player w hjoins).trans hp, fun hw => (hstep.loggedIn w hw).resolve_right hjoins⟩

/-- **Nobody else's hand.** Whatever anybody does but what the player of `w`
asks for, that player holds what they held, if `w` stays logged in. -/
theorem held_of_leaves (hm : Manned Policy.shipped s) (hi : Seats s) (hs : s.Introduced)
    (hw : s.Registered w) (hp : (s.workers w).player = some p) {d : Deed} (hd : d.Possible s)
    (honce : d.Once S s) (hact : ∀ e method x y, d ≠ .act w e method x y)
    (hl : (d.handler S fuel).Leaves s s') (hin : s'.LoggedIn w) :
    (s'.game.people p).held = (s.game.people p).held := by
  have hholds : Holds p (s.game.people p).held s.game := ⟨hm.staff w p hp, rfl⟩
  have haloof : ∀ v, s.Registered v → v ≠ w → Aloof v p (s.game.people p).held s := fun v hv hne =>
    ⟨hholds, fun hpv => hne (hs.eq_of_player hm hi hw hv hp hpv)⟩
  -- what ends the connection of `w` is none of it
  have hgone : ∀ {t}, Left Policy.shipped S.length w t s' → Seats t → False := fun hleft ht =>
    (ht.loggedIn_left hleft hin).2 rfl
  have hdone := done_of_leaves (hosts_of_below (P := Policy.shipped) rfl) hm.sound hm.staff hd
    (may_shipped d s) hl
  suffices h : Holds p (s.game.people p).held s'.game from h.2
  cases d with
  | session e =>
    cases e with
    | connect socket peer =>
      have hx : Run.Keeps (fun t : State (Point Obj) => Holds p (s.game.people p).held t.game)
          (register socket peer) :=
        .bind (.modify (fun _ h => h)) (fun _ => .bind (.assertSome _ _) (fun _ =>
          .modify (fun _ h => h)))
      exact Run.Triple.leaves hx hholds hl
    | login v name pass r b c =>
      by_cases hv : v = w
      · subst hv
        cases hdone with
        | refused hleft => exact (hgone hleft hi).elim
        | welcomed hadmits hfree _ _ =>
          have hnone := honce ⟨hadmits, hfree⟩ v _ _ _ _ _ rfl
          rw [hp] at hnone
          cases hnone
      · exact (gripped_login v name pass r b c).leaves (haloof v hd hv) hl
    | chat v text =>
      have hx : Run.Keeps (fun t : State (Point Obj) => Holds p (s.game.people p).held t.game)
          (chat v text) := .get_bind (fun _ => gripped_onGame (holds_send _))
      exact Run.Triple.leaves hx hholds hl
    | disconnect v =>
      by_cases hv : v = w
      · subst hv
        cases hdone with
        | left hleft => exact (hgone hleft hi).elim
      · exact (Run.Triple.leaves (aloof_unregister v) (haloof v hd hv) hl).1
  | act v e method x y =>
    have hv : v ≠ w := fun h => hact e method x y (h ▸ rfl)
    exact (Run.Triple.leaves (aloof_act v e method x y) (haloof v hd.1 hv) hl).1
  | transmit v accepted =>
    by_cases hv : v = w
    · subst hv
      cases hdone with
      | idle _ => exact hholds
      | sent _ => exact hholds
      | broken _ hleft =>
        exact (hgone hleft (hi.sameTables (SameTables.mapQueue s v (List.drop 1)))).elim
    · exact (Run.Triple.leaves (aloof_sendOne v accepted) (haloof v hd hv) hl).1

end Hand

end Server

end Felt
