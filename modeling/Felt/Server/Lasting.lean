import Felt.Server.Answers
import Felt.Server.Arrivals

/-!
# What lasts over a run

An assertion about the game lasts over a run, if coming, leaving and saying
something keep it, and every request does in a sound game (`Lasting.played`).

Most of what players do is made of few steps: something is said, a hand
changes, an entity is put on another one, a count changes, a stone is made or
deleted. An assertion that these keep, and coming and opening a box, lasts
(`Steady.lasting`).

`Steady` is the shorter list, of what methods are made of, and `Steady.lasting`
leads to the longer one. It goes through the methods once, so that a proof that
something lasts says only what one step does: a census and a fact about what is
registered are proved in the same way.
-/

namespace Felt

namespace Server

open Box (Point)

/-! ## What lasts -/

/-- **An assertion about the game that lasts.** -/
structure Lasting (S : Site) (fuel : ℕ) (I : Game (Point Obj) → Prop) : Prop where
  /-- What was broadcast is queued. -/
  queue : ∀ g, I g → I g.settled
  /-- Something is broadcast. -/
  said : ∀ call, Run.Keeps I (send call)
  /-- A player comes. -/
  comes : ∀ name r g b, Run.Keeps I (addPlayer S.length name r g b)
  /-- A player leaves. -/
  leaves : ∀ p, Run.Keeps I (Player.disconnect p)
  /-- Something is asked of an entity. -/
  act : ∀ e method who x y, Run.Triple (fun g => Sound Kind.Below g ∧ g.Listed (.entity e) ∧ I g)
    (Server.act S.length (fuel + 1) e method who x y) (fun _ => I) (fun _ => I)

section Lasting

variable {S : Site} {fuel : ℕ} {I : Game (Point Obj) → Prop} {s s' : State (Point Obj)}

/-- A method of the game's leaves what it leaves of the game. -/
theorem onGame_triple {β : Type} {x : Action (Point Obj) β} {J : Game (Point Obj) → Prop}
    (hqueue : ∀ g, I g → I g.settled) (hx : Run.Triple J x (fun _ => I) (fun _ => I)) :
    Run.Triple (fun s => J s.game) (onGame x) (fun _ s => I s.game) (fun _ s => I s.game) := by
  intro s hs
  unfold onGame
  rcases h : x s.game with ⟨b, g⟩ | ⟨e, g⟩ | _
  · exact hqueue g (hx.ok hs h)
  · exact hqueue g (hx.error hs h)
  · trivial

theorem Lasting.unregister (h : Lasting S fuel I) (w : ℕ) :
    Run.Keeps (fun s => I s.game) (unregister w) := by
  refine .bind (.modify (fun _ hI => hI)) (fun _ => .bind ?_ (fun _ => .modify (fun _ hI => hI)))
  refine Run.Keeps.get_bind (fun s => ?_)
  cases s.players.get (s.workers w).name with
  | none => exact .pure ()
  | some _ =>
    exact .bind (.assertSome _ _) (fun p => .bind (onGame_triple h.queue (h.leaves p)) (fun _ =>
      .modify (fun _ hI => hI)))

/-- **What is no request** keeps what lasts. -/
theorem Lasting.perform (h : Lasting S fuel I) (e : Event (Point Obj)) :
    Run.Keeps (fun s => I s.game) (perform S e) := by
  cases e with
  | connect socket peer =>
    exact .bind (.modify (fun _ hI => hI)) (fun _ => .bind (.assertSome _ _) (fun _ =>
      .modify (fun _ hI => hI)))
  | login w name pass r g b =>
    refine Run.Keeps.get_bind (fun s => ?_)
    cases name with
    | string name =>
      show Run.Keeps _ (if _ then _ else if _ then _ else _)
      split_ifs
      · exact h.unregister w
      · exact h.unregister w
      · exact .bind (onGame_triple h.queue (h.comes name r g b)) (fun _ =>
          .bind (.modify (fun _ hI => hI)) (fun _ => .bind (.modify (fun _ hI => hI)) (fun _ =>
            onGame_triple h.queue (h.said _))))
    | _ => exact h.unregister w
  | chat w text => exact .get_bind (fun _ => onGame_triple h.queue (h.said _))
  | disconnect w => exact h.unregister w

/-- **What lasts is kept by every deed.** -/
theorem Lasting.step (h : Lasting S fuel I) (hm : Manned Policy.shipped s) {d : Deed}
    (hd : d.Possible s) (hI : I s.game) (hl : (d.handler S fuel).Leaves s s') : I s'.game := by
  suffices hx : Run.Triple (· = s) (d.handler S fuel) (fun _ t => I t.game) (fun _ t => I t.game)
    from hx.leaves rfl hl
  have hstart : ∀ t, t = s → I t.game := fun t ht => ht ▸ hI
  cases d with
  | session e => exact (h.perform e).weaken hstart (fun _ _ hI => hI) (fun _ _ hI => hI)
  | act w e method x y =>
    refine Run.Triple.get_bind (fun t ht => ?_)
    refine .xpcall ((onGame_triple h.queue (h.act e method _ x y)).weaken ?_ (fun _ _ hI => hI)
      (fun _ _ hI => hI)) (fun _ _ hI => hI) (fun _ => h.unregister w)
    rintro t' rfl
    rw [ht]
    exact ⟨hm.sound, hd.2, hI⟩
  | transmit w accepted =>
    suffices hkeeps : Run.Keeps (fun t => I t.game) (sendOne w accepted) from
      hkeeps.weaken hstart (fun _ _ hI => hI) (fun _ _ hI => hI)
    refine Run.Keeps.get_bind (fun u => ?_)
    show Run.Keeps _ (if _ then _ else _)
    split_ifs
    · exact .pure ()
    · refine .xpcall (.bind (.modify (fun _ hI => hI)) (fun _ => ?_)) (fun _ => h.unregister w)
      show Run.Keeps _ (if _ then _ else _)
      split_ifs
      · exact .pure ()
      · exact .throw _

/-- Every run of the shipped classes leaves a sound game. -/
theorem manned_of_played {ok : Deed → State (Point Obj) → Prop} {games : List Bytes}
    (hs : Played S fuel ok (State.opening S games) s) : Manned Policy.shipped s :=
  (manned_opening S games (hosts_of_below rfl) trivial (fun _ => trivial)).played
    (hosts_of_below rfl) (fun d s _ => may_shipped d s) hs

/-- **What lasts holds in every state a run reaches.** -/
theorem Lasting.played (h : Lasting S fuel I) {ok : Deed → State (Point Obj) → Prop}
    {games : List Bytes} (h₀ : I (Game.start S.length games))
    (hs : Played S fuel ok (State.opening S games) s) : I s.game := by
  induction hs with
  | start => exact h₀
  | deed d hs hd _ hl ih => exact h.step (manned_of_played hs) hd ih hl

end Lasting

/-! ## What small steps keep -/

section Steady

variable {α : Type}

/-- **An assertion about the game that is steady**: the steps that requests
are made of keep it. -/
structure Steady (L : Dict.Length Obj) (I : Game α → Prop) : Prop where
  /-- Something is broadcast. -/
  said : ∀ call, Run.Keeps I (send call)
  /-- A hand changes. -/
  held : ∀ g p item, I g → I (g.mapPlayer p (fun v => { v with held := item }))
  /-- An entity is held by somebody else. -/
  heldBy : ∀ g e who, I g → I (g.mapEntity e (fun v => { v with heldBy := who }))
  /-- An entity is put on another one. -/
  moved : ∀ g e p x y, I g → I (g.moved e (some p) x y)
  /-- A count changes. -/
  count : ∀ g e n, I g → I (g.mapEntity e (fun v => { v with count := v.count.add n }))
  /-- A stone is made. -/
  stone : ∀ g name, I g → I (g.created L (Kind.goPiece.entity name))
  /-- A stone is deleted. -/
  deleted : ∀ g e id, g.objects.get id = some (.entity e) → (g.entities e).kind = .goPiece →
    I g → I (g.deleted e id)

variable {L : Dict.Length Obj} {I : Game α → Prop} {g : Game α}

theorem Steady.setHeld (h : Steady L I) (p : ℕ) (item : Option ℕ) :
    Run.Keeps I (setHeld p item) :=
  .bind (.modify (fun g => h.held g p item)) (fun _ => h.said _)

theorem Steady.setHeldBy (h : Steady L I) (e : ℕ) (who : Option ℕ) :
    Run.Keeps I (setHeldBy e who) :=
  .bind (.modify (fun g => h.heldBy g e who)) (fun _ => h.said _)

theorem Steady.moveto (h : Steady L I) (self p : ℕ) (x y : Option ℚ) :
    Run.Keeps I (moveto self (some p) x y) := by
  intro g hg
  rw [moveto_apply]
  exact h.moved g self p x y hg

theorem Steady.disconnect (h : Steady L I) (p : ℕ) : Run.Keeps I (Player.disconnect p) := by
  refine .bind (.get_bind (fun g => ?_)) (fun _ => .get_bind (fun _ => h.said _))
  cases (g.people p).held with
  | none => exact .pure ()
  | some item => exact .bind (h.setHeldBy _ _) (fun _ => h.setHeld _ _)

theorem Steady.pickup (h : Steady L I) (self : ℕ) (who : Option ℕ) :
    Run.Keeps I (Token.pickup self who) := by
  refine .get_bind (fun g => ?_)
  cases (g.entities self).heldBy with
  | some _ => exact .pure ()
  | none =>
    refine .bind (.assertSome _ _) (fun p => ?_)
    cases (g.people p).held with
    | some _ => exact .pure ()
    | none =>
      exact .bind (h.setHeld _ _) (fun _ => .bind (h.setHeldBy _ _) (fun _ =>
        .get_bind (fun _ => h.said _)))

theorem Steady.playerDrop (h : Steady L I) (self onto : ℕ) (x y : Option ℚ) :
    Run.Keeps I (Player.drop self onto x y) :=
  .get_bind (fun _ => .bind (.assertSome _ _) (fun _ => .bind (h.setHeld _ _) (fun _ =>
    .bind (h.setHeldBy _ _) (fun _ => .bind (h.moveto _ _ _ _) (fun _ =>
      .get_bind (fun _ => h.said _))))))

theorem Steady.boardDrop (h : Steady L I) (self : ℕ) (who : Option ℕ) (x y : Option ℚ) :
    Run.Keeps I (Board.drop self who x y) := by
  refine .get_bind (fun g => .bind (.assertSome _ _) (fun p => ?_))
  cases (g.people p).held with
  | none => exact .pure ()
  | some item =>
    show Run.Keeps _ (if _ then _ else _)
    split_ifs
    · exact .pure ()
    · exact .bind (.assertSome _ _) (fun _ => .bind (.assertSome _ _) (fun _ =>
        h.playerDrop _ _ _ _))

theorem Steady.pieceDrop (h : Steady L I) (self : ℕ) (who : Option ℕ) (x y : Option ℚ) :
    Run.Keeps I (Piece.drop self who x y) := by
  refine .get_bind (fun g => .bind (.assertSome _ _) (fun parent => ?_))
  show Run.Keeps _ (if _ then _ else _)
  split_ifs
  · exact .bind (.assertSome _ _) (fun _ => .bind (.assertSome _ _) (fun _ =>
      .bind (h.boardDrop _ _ _ _) (fun _ => h.pickup _ _)))
  · exact .pure ()

/-- **Something is taken from a pile**, which is a stone. -/
theorem Steady.takeItem (h : Steady L I) (self : ℕ) (who : Option ℕ) (hsound : Sound Kind.Below g)
    (hg : I g) :
    Run.Triple (· = g) (Pile.takeItem L self who) (fun _ => I) (fun _ => I) := by
  refine .get_bind (fun t ht => ?_)
  subst ht
  show Run.Triple _ (if _ then _ else _) _ _
  split_ifs
  · refine .bind (M := fun a s => s = t ∧ (t.entities self).item = some a)
      (.assertSome (fun _ ha _ hs => ⟨hs, ha⟩) (fun _ _ hs => hs ▸ hg)) (fun item => ?_)
    rintro s ⟨rfl, hitem⟩
    have hkind : item.1 = .goPiece := hsound.stock self item.1 item.2 hitem
    have hnew : Run.Keeps I (newEntity L (Kind.goPiece.entity item.2) []) := by
      intro s' hs'
      rw [newEntity_apply L rfl]
      exact h.stone s' item.2 hs'
    have hkeeps : Run.Keeps I (do
        let e ← newEntity L (item.1.entity item.2) []
        if item.1.isToken then Token.pickup e who else Run.throw (.refused "call nil")
        Run.modify (Game.mapEntity self (fun v => { v with count := v.count.add (-1) }))) := by
      rw [hkind]
      exact .bind hnew (fun e => .bind (h.pickup e who) (fun _ =>
        .modify (fun s hs => h.count s self (-1) hs)))
    exact hkeeps s hg
  · exact .pure (fun _ hs => hs ▸ hg)

/-- **Something is dropped on a pile**, which takes it back or does nothing. -/
theorem Steady.pileDrop (h : Steady L I) (fuel : ℕ) {self : ℕ} (who : Option ℕ) (x y : Option ℚ)
    (hsound : Sound Kind.Below g) (hkind : (g.entities self).kind = .pile) (hg : I g) :
    Run.Triple (· = g) (Pile.drop (fuel + 1) self who x y) (fun _ => I) (fun _ => I) := by
  have hbare := bare_of_below (P := Policy.shipped) rfl
  have hnil : (g.entities self).children = [] :=
    hsound.children_nil (by rw [hkind]; exact hbare.pile)
  refine Run.Ends.triple (fun s hs => ?_)
  subst hs
  rcases who with _ | p
  · exact .throw hg
  by_cases hrefuses : Pile.refuses s self p = true
  · refine Run.Ends.get_bind ?_
    rw [Run.assertSome_bind, if_pos hrefuses]
    exact .pure hg
  have hrefuses' : Pile.refuses s self p = false := Bool.not_eq_true _ ▸ hrefuses
  -- an error of the board's drop is one of the pile's
  have hdrop : ∀ err, Board.drop self (some p) x y s = .error err s →
      Run.Ends (Pile.drop (fuel + 1) self (some p) x y) s (fun _ => I) (fun _ => I) :=
    fun err herr => by
      refine Or.inr ⟨err, s, ?_, hg⟩
      rw [Pile.drop, Run.get_bind, Run.assertSome_bind, if_neg hrefuses, Run.bind_of_error herr]
  rcases hheld : (s.people p).held with _ | item
  · refine Or.inr ⟨.refused "index nil", s, ?_, hg⟩
    rw [Pile.drop, Run.get_bind, Run.assertSome_bind, if_neg hrefuses,
      Run.bind_of_ok (Board.drop_empty hheld self x y), Run.get_bind, hnil]
    rfl
  have hne := hsound.ne_of_not_refuses hkind hrefuses' hheld
  rcases x with _ | x
  · exact hdrop _ (Board.drop_nowhere hheld hne (Or.inl rfl))
  rcases y with _ | y
  · exact hdrop _ (Board.drop_nowhere hheld hne (Or.inr rfl))
  have hstone := hsound.kind_of_not_refuses hrefuses' hheld
  have hitem : (s.entities item).children = [] :=
    hsound.children_nil (by rw [hstone]; exact hbare.stone)
  -- the item is dropped, deleted, and counted
  obtain ⟨x', y', id, hid, hrun⟩ :=
    Pile.drop_apply hsound hkind hrefuses' hheld hnil hitem fuel x y
  have hsame := sameObjects_dropped p item self (some x') (some y') s
  refine Or.inl ⟨(), _, hrun, h.count _ self 1 (h.deleted _ item id ?_ ?_ ?_)⟩
  · rw [hsame.objects, hid]
  · rw [hsame.kind, hstone]
  · exact (h.playerDrop p self _ _).ok hg (Player.drop_apply hheld self _ _)

/-- **What is steady is kept by requests**, if opening a box keeps it. -/
theorem Steady.act (h : Steady L I) (hbox : ∀ {g : Game α} {self}, Sound Kind.Below g →
      g.Listed (.entity self) → (g.entities self).kind = .box → I g →
        Run.Triple (· = g) (GameBox.openBox L self) (fun _ => I) (fun _ => I))
    (fuel e : ℕ) (method : Method) (who : Option ℕ) (x y : Option ℚ) :
    Run.Triple (fun g => Sound Kind.Below g ∧ g.Listed (.entity e) ∧ I g)
      (act L (fuel + 1) e method who x y) (fun _ => I) (fun _ => I) := by
  refine .get_bind (fun g hg => ?_)
  obtain ⟨hsound, he, hg⟩ := hg
  have hkeeps : ∀ {z : Action α Unit}, Run.Keeps I z →
      Run.Triple (· = g) z (fun _ => I) (fun _ => I) := fun hz =>
    hz.weaken (fun _ hs => hs ▸ hg) (fun _ _ hs => hs) (fun _ _ hs => hs)
  by_cases haction : method ∈ (g.entities e).kind.actions
  swap
  · simp only [if_neg haction]
    exact hkeeps (.throw _)
  simp only [if_pos haction]
  cases method with
  | pickup => exact hkeeps (h.pickup e who)
  | drop =>
    dsimp only
    split_ifs with hpiece hpile
    · exact hkeeps (h.pieceDrop e who x y)
    · exact h.pileDrop fuel who x y hsound hpile hg
    · exact hkeeps (h.boardDrop e who x y)
  | takeItem => exact h.takeItem e who hsound hg
  | openBox =>
    refine hbox hsound he ?_ hg
    revert haction
    cases (g.entities e).kind <;> decide

end Steady

/-- **What is steady lasts**, if coming and opening a box keep it. -/
theorem Steady.lasting {S : Site} {fuel : ℕ} {I : Game (Point Obj) → Prop}
    (h : Steady S.length I) (hqueue : ∀ g, I g → I g.settled)
    (hcomes : ∀ name r g b, Run.Keeps I (addPlayer S.length name r g b))
    (hbox : ∀ {g : Game (Point Obj)} {self}, Sound Kind.Below g → g.Listed (.entity self) →
      (g.entities self).kind = .box → I g →
        Run.Triple (· = g) (GameBox.openBox S.length self) (fun _ => I) (fun _ => I)) :
    Lasting S fuel I :=
  ⟨hqueue, h.said, hcomes, h.disconnect, fun e method who x y => h.act hbox fuel e method who x y⟩

/-! ## The start -/

/-- What making the first field keeps holds of the game a server starts with. -/
theorem start_of_keeps {α : Type} {L : Dict.Length Obj} {games : List Bytes} {I : Game α → Prop}
    (hqueue : ∀ g, I g → I { g with sent := [] }) (hx : Run.Keeps I (openGameboxes L games))
    (h : I Game.empty) : I (Game.start L games) := by
  unfold Game.start
  rcases hopen : openGameboxes L games (Game.empty : Game α) with ⟨u, g⟩ | ⟨err, g⟩ | _
  · exact hqueue g (hx.ok h hopen)
  · exact hqueue g (Run.Triple.error hx h hopen)
  · exact h

/-! ## What every change keeps -/

/-- **An assertion that every change keeps.** -/
structure Persists (P : Policy) (L : Dict.Length Obj) (J : Game (Point Obj) → Prop) : Prop where
  /-- What was broadcast is queued. -/
  settled : ∀ {g}, J g → J g.settled
  /-- A change is made. -/
  change : ∀ {g g'}, Sound P.fits g → Change P L g g' → J g → J g'

section Persists

variable {P : Policy} {S : Site} {fuel : ℕ} {J : Game (Point Obj) → Prop}
  {s s' : State (Point Obj)} {g g' : Game (Point Obj)}

theorem Persists.chain {L : Dict.Length Obj} (h : Persists P L J) (hg : Sound P.fits g)
    (hc : Chain P L g g') (hJ : J g) : J g' := by
  induction hc with
  | refl => exact hJ
  | tail hc hlast ih => exact h.change (hg.chain hc) hlast ih

theorem Persists.left {L : Dict.Length Obj} {w : ℕ} (h : Persists P L J) (hm : Manned P s)
    (hl : Left P L w s s') (hJ : J s.game) : J s'.game := by
  cases hl with
  | guest _ => exact hJ
  | player _ _ hc _ => exact h.settled (h.chain hm.sound hc hJ)
  | impostor _ _ => exact hJ

/-- **Every deed keeps what every change keeps.** -/
theorem Persists.done (h : Persists P S.length J) (hm : Manned P s) {d : Deed}
    (hd : Done P S s d s')
    (hJ : J s.game) : J s'.game := by
  cases hd with
  | joined hj => exact hj.game ▸ hJ
  | missed => exact hJ
  | refused hl => exact h.left hm hl hJ
  | welcomed _ _ hc _ =>
    have hsettled := (hm.settle hc).sound
    exact h.settled (h.change hsettled (.say rfl) (h.settled (h.chain hm.sound hc hJ)))
  | said => exact h.settled (h.change hm.sound (.say rfl) hJ)
  | left hl => exact h.left hm hl hJ
  | acted hc => exact h.settled (h.chain hm.sound hc hJ)
  | failed _ hc _ hl =>
    exact h.left (hm.settle hc) hl (h.settled (h.chain hm.sound hc hJ))
  | idle _ => exact hJ
  | sent _ => exact hJ
  | broken _ hl => exact h.left hm.popped hl hJ

/-- **What every change keeps holds in every state a run reaches**, if it holds
of the empty game. -/
theorem Persists.played (h : Persists Policy.shipped S.length J)
    {ok : Deed → State (Point Obj) → Prop}
    {games : List Bytes} (h₀ : J Game.empty) (hs : Played S fuel ok (State.opening S games) s) :
    J s.game := by
  induction hs with
  | start =>
    obtain ⟨g, hg, hstart⟩ := start_sound (P := Policy.shipped) (α := Point Obj) S.length games
      (hosts_of_below rfl) trivial (fun _ => trivial)
    show J (Game.start S.length games)
    rw [hstart]
    exact h.settled (h.chain (sound_empty _) hg.chain h₀)
  | deed d hs hd _ hl ih =>
    have hm := manned_of_played hs
    exact h.done hm (done_of_leaves (hosts_of_below rfl) hm.sound hm.staff hd (may_shipped d _) hl)
      ih

end Persists

end Server

end Felt
