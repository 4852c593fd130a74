import Felt.Server.Custody
import Felt.Server.History

/-!
# Who comes, and what clients are told of a deed

Nothing but a login gives the game a new player, and whoever comes is
announced before anything else happens. `Stretch` is what a deed does to the
game under that aspect, and `Serves` what it does to the server as the clients
see it: to whoever was logged in it says what has changed, and a newcomer is
sent the game and then what has changed since.

A login is the one deed that does two things at a time. The player is in the
game before the newcomer's queue has anything in it, and is announced to the
others before the snapshot is made, in which they are as well. A stretch has no
newcomer in it, or is that announcement.
-/

namespace Felt

namespace Server

open Box (Point)

/-! ## The table of players -/

section Seating

variable {α : Type} (t : Dict Bytes ℕ)

/-- **Who sits at the table**: the players of the game are these. -/
def Seating (g : Game α) : Prop := g.players = t

variable {t}

theorem keeps_get {β : Type} {f : Game α → Action α β}
    (h : ∀ g, Run.Keeps (Seating t) (f g)) : Run.Keeps (Seating t) (Run.get >>= f) :=
  Run.Keeps.bind (fun _ hg => hg) h

theorem keeps_mapEntity (e : ℕ) (f : Entity → Entity) :
    Run.Keeps (Seating t) (Run.modify (Game.mapEntity e f) : Action α Unit) :=
  .modify (fun _ h => h)

theorem keeps_send (call : (Obj → Packed) → Call α) :
    Run.Keeps (Seating t) (send call : Action α Unit) := .modify (fun _ h => h)

theorem keeps_setHeld (p : ℕ) (item : Option ℕ) :
    Run.Keeps (Seating t) (setHeld p item : Action α Unit) :=
  .bind (.modify (fun _ h => h)) (fun _ => keeps_send _)

theorem keeps_setHeldBy (e : ℕ) (who : Option ℕ) :
    Run.Keeps (Seating t) (setHeldBy e who : Action α Unit) :=
  .bind (keeps_mapEntity e _) (fun _ => keeps_send _)

theorem seating_setId (o : Obj) (id : ℕ) (g : Game α) (h : Seating t g) :
    Seating t (g.setId o id) := by
  cases o <;> exact h

theorem seating_addObject (L : Dict.Length Obj) (o : Obj) :
    Run.Keeps (Seating t) (addObject L o : Action α Unit) := by
  refine .bind (keeps_get (fun g => ?_)) (fun _ => keeps_get (fun g =>
    .bind (.modify (seating_setId o _)) (fun _ => .bind (keeps_send _) (fun _ =>
      .modify (fun _ h => h)))))
  cases g.idOf o with
  | none => exact .pure ()
  | some id =>
    show Run.Keeps _ (if _ then _ else _)
    split_ifs
    · exact .pure ()
    · exact .throw _

theorem seating_deleteObject (o : Obj) : Run.Keeps (Seating t) (deleteObject o : Action α Unit) :=
  .bind (keeps_send _) (fun _ => keeps_get (fun _ => .bind (.assertSome _ _) (fun _ =>
    .modify (fun _ h => h))))

theorem seating_remove (self child : ℕ) :
    Run.Keeps (Seating t) (remove self child : Action α Unit) :=
  .bind (keeps_mapEntity _ _) (fun _ => keeps_mapEntity _ _)

theorem seating_moveto (self : ℕ) (parent : Option ℕ) (x y : Option ℚ) :
    Run.Keeps (Seating t) (moveto self parent x y : Action α Unit) := by
  have hleave : Run.Keeps (Seating t) (leaveParent self parent : Action α Unit) := by
    refine keeps_get (fun g => ?_)
    cases (g.entities self).parent with
    | none => exact .pure ()
    | some p =>
      show Run.Keeps _ (if _ then _ else _)
      split_ifs
      · exact .pure ()
      · exact seating_remove p self
  have hjoin : Run.Keeps (Seating t) (joinParent self parent : Action α Unit) := by
    refine keeps_get (fun g => ?_)
    cases parent with
    | none => exact .pure ()
    | some p =>
      show Run.Keeps _ (if _ then _ else _)
      split_ifs
      · exact .pure ()
      · exact .bind (keeps_mapEntity _ _) (fun _ => keeps_mapEntity _ _)
  exact .bind hleave (fun _ => .bind (keeps_mapEntity _ _) (fun _ => .bind hjoin (fun _ =>
    .bind (keeps_mapEntity _ _) (fun _ => keeps_send _))))

mutual

theorem seating_delete : ∀ fuel self : ℕ,
    Run.Keeps (Seating t) (delete fuel self : Action α Unit)
  | 0, _ => fun _ _ => trivial
  | fuel + 1, self => keeps_get (fun _ => .bind (seating_deleteChildren fuel self _ 0) (fun _ =>
      .bind (seating_moveto self none none none) (fun _ => seating_deleteObject _)))

theorem seating_deleteChildren : ∀ fuel self todo i : ℕ,
    Run.Keeps (Seating t) (deleteChildren fuel self todo i : Action α Unit)
  | 0, _, 0, _ => .pure ()
  | _ + 1, _, 0, _ => .pure ()
  | 0, _, _ + 1, _ => fun _ _ => trivial
  | fuel + 1, self, todo + 1, i => keeps_get (fun g => by
      cases (g.entities self).children[i]? with
      | none => exact .pure ()
      | some child => exact .bind (seating_delete fuel child) (fun _ =>
          seating_deleteChildren fuel self todo (i + 1)))

end

theorem seating_newEntity (L : Dict.Length Obj) (v : Entity) (children : List ℕ) :
    Run.Keeps (Seating t) (newEntity L v children : Action α ℕ) :=
  keeps_get (fun _ => .bind (.modify (fun _ h => h)) (fun _ =>
    .bind (.forList (fun _ => seating_moveto _ _ _ _) _) (fun _ =>
      .bind (seating_addObject L _) (fun _ => .pure _))))

theorem seating_addField (L : Dict.Length Obj) (name : Bytes) :
    Run.Keeps (Seating t) (addField L name : Action α ℕ) := by
  refine .bind (keeps_get (fun g => ?_)) (fun _ => .bind (seating_addObject L _) (fun _ => .pure _))
  cases g.fields.get name with
  | some f => exact .pure f
  | none => exact .bind (seating_newEntity L _ _) (fun _ =>
      .bind (.modify (fun _ h => h)) (fun _ => .pure _))

/-! ## What a request does to it -/

theorem seating_pickup (self item : ℕ) :
    Run.Keeps (Seating t) (Player.pickup self item : Action α Unit) :=
  .bind (keeps_setHeld _ _) (fun _ => .bind (keeps_setHeldBy _ _) (fun _ =>
    keeps_get (fun _ => keeps_send _)))

theorem seating_tokenPickup (self : ℕ) (who : Option ℕ) :
    Run.Keeps (Seating t) (Token.pickup self who : Action α Unit) := by
  refine keeps_get (fun g => ?_)
  cases (g.entities self).heldBy with
  | some _ => exact .pure ()
  | none =>
    refine .bind (.assertSome who _) (fun p => ?_)
    cases (g.people p).held with
    | some _ => exact .pure ()
    | none => exact seating_pickup p self

theorem seating_playerDrop (self onto : ℕ) (x y : Option ℚ) :
    Run.Keeps (Seating t) (Player.drop self onto x y : Action α Unit) :=
  keeps_get (fun _ => .bind (.assertSome _ _) (fun _ => .bind (keeps_setHeld _ _) (fun _ =>
    .bind (keeps_setHeldBy _ _) (fun _ => .bind (seating_moveto _ _ _ _) (fun _ =>
      keeps_get (fun _ => keeps_send _))))))

theorem seating_boardDrop (self : ℕ) (who : Option ℕ) (x y : Option ℚ) :
    Run.Keeps (Seating t) (Board.drop self who x y : Action α Unit) := by
  refine keeps_get (fun g => .bind (.assertSome who _) (fun p => ?_))
  cases (g.people p).held with
  | none => exact .pure ()
  | some item =>
    show Run.Keeps _ (if _ then _ else _)
    split_ifs
    · exact .pure ()
    · exact .bind (.assertSome x _) (fun _ => .bind (.assertSome y _) (fun _ =>
        seating_playerDrop p self _ _))

theorem seating_pieceDrop (self : ℕ) (who : Option ℕ) (x y : Option ℚ) :
    Run.Keeps (Seating t) (Piece.drop self who x y : Action α Unit) := by
  refine keeps_get (fun g => .bind (.assertSome _ _) (fun parent => ?_))
  show Run.Keeps _ (if _ then _ else _)
  split_ifs
  · exact .bind (.assertSome x _) (fun _ => .bind (.assertSome y _) (fun _ =>
      .bind (seating_boardDrop parent who _ _) (fun _ => seating_tokenPickup self who)))
  · exact .pure ()

theorem seating_pileDrop (fuel self : ℕ) (who : Option ℕ) (x y : Option ℚ) :
    Run.Keeps (Seating t) (Pile.drop fuel self who x y : Action α Unit) := by
  refine keeps_get (fun g => .bind (.assertSome who _) (fun p => ?_))
  show Run.Keeps _ (if _ then _ else _)
  split_ifs
  · exact .pure ()
  · exact .bind (seating_boardDrop self who x y) (fun _ => keeps_get (fun _ =>
      .bind (.assertSome _ _) (fun child => .bind (seating_delete fuel child) (fun _ =>
        keeps_mapEntity _ _))))

theorem seating_takeItem (L : Dict.Length Obj) (self : ℕ) (who : Option ℕ) :
    Run.Keeps (Seating t) (Pile.takeItem L self who : Action α Unit) := by
  refine keeps_get (fun g => ?_)
  show Run.Keeps _ (if _ then _ else _)
  split_ifs
  · refine .bind (.assertSome _ _) (fun made => .bind (seating_newEntity L _ _) (fun item => ?_))
    show Run.Keeps _ (if _ then _ else _)
    split_ifs
    · exact .bind (seating_tokenPickup item who) (fun _ => keeps_mapEntity _ _)
    · exact .bind (.throw _) (fun _ => keeps_mapEntity _ _)
  · exact .pure ()

theorem seating_addPieces (L : Dict.Length Obj) (board : ℕ) (colour : Bytes) :
    Run.Keeps (Seating t) (addPieces L board colour : Action α Unit) := by
  have hpiece : ∀ name x y, Run.Keeps (Seating t) (addPiece L board name x y : Action α Unit) :=
    fun _ _ _ => .bind (seating_newEntity L _ _) (fun _ => seating_moveto _ _ _ _)
  exact .bind (.forList (fun _ => hpiece _ _ _) _) (fun _ => .bind (.forList (fun _ =>
    .bind (hpiece _ _ _) (fun _ => .bind (hpiece _ _ _) (fun _ => hpiece _ _ _))) _) (fun _ =>
      .bind (hpiece _ _ _) (fun _ => hpiece _ _ _)))

theorem seating_boxScript (L : Dict.Length Obj) (name : Bytes) :
    Run.Keeps (Seating t) (boxScript L name : Action α Unit) := by
  unfold boxScript
  split_ifs
  · exact .bind (seating_addField L _) (fun _ => .bind (seating_newEntity L _ _) (fun _ =>
      .bind (seating_moveto _ _ _ _) (fun _ => .forList (seating_addPieces L _) _)))
  · exact .bind (seating_addField L _) (fun _ => .bind (seating_newEntity L _ _) (fun _ =>
      .bind (seating_moveto _ _ _ _) (fun _ => .bind (seating_newEntity L _ _) (fun _ =>
        .bind (seating_moveto _ _ _ _) (fun _ => .bind (seating_newEntity L _ _) (fun _ =>
          seating_moveto _ _ _ _))))))
  · exact .throw _

theorem seating_openBox (L : Dict.Length Obj) (self : ℕ) :
    Run.Keeps (Seating t) (GameBox.openBox L self : Action α Unit) := by
  have hopen : ∀ name, Run.Keeps (Seating t) (openGame L name : Action α Unit) := fun name => by
    refine keeps_get (fun g => ?_)
    show Run.Keeps _ (if _ then _ else _)
    split_ifs
    · exact .pure ()
    · exact .bind (seating_boxScript L name) (fun _ => .modify (fun _ h => h))
  refine keeps_get (fun g => ?_)
  show Run.Keeps _ (if _ then _ else _)
  split_ifs
  · exact .pure ()
  · exact .bind (.assertSome _ _) (fun name => .bind (hopen name) (fun _ =>
      .bind (keeps_mapEntity _ _) (fun _ => keeps_get (fun _ => .bind (.assertSome _ _) (fun _ =>
        seating_remove _ _)))))

/-- **A request gives the game no player**, and takes none. -/
theorem seating_act (L : Dict.Length Obj) (fuel self : ℕ) (method : Method) (who : Option ℕ)
    (x y : Option ℚ) : Run.Keeps (Seating t) (act L fuel self method who x y : Action α Unit) := by
  refine keeps_get (fun g => ?_)
  by_cases haction : method ∈ (g.entities self).kind.actions
  · simp only [if_pos haction]
    cases method with
    | pickup => exact seating_tokenPickup self who
    | drop =>
      dsimp only
      split_ifs
      · exact seating_pieceDrop self who x y
      · exact seating_pileDrop fuel self who x y
      · exact seating_boardDrop self who x y
    | takeItem => exact seating_takeItem L self who
    | openBox => exact seating_openBox L self
  · simp only [if_neg haction]
    exact .throw _

/-- Nor does a player who leaves. -/
theorem seating_disconnect (p : ℕ) :
    Run.Keeps (Seating t) (Player.disconnect p : Action α Unit) := by
  refine .bind (keeps_get (fun g => ?_)) (fun _ => keeps_get (fun _ => keeps_send _))
  cases (g.people p).held with
  | none => exact .pure ()
  | some item => exact .bind (keeps_setHeldBy _ _) (fun _ => keeps_setHeld _ _)

end Seating

section Handlers

variable {t : Dict Bytes ℕ} {S : Site} {s s' : State (Point Obj)} {w : ℕ}

theorem seating_onGame {β : Type} {x : Action (Point Obj) β} (hx : Run.Keeps (Seating t) x) :
    Run.Keeps (fun s => Seating t s.game) (onGame x) := by
  intro s hs
  unfold onGame
  rcases h : x s.game with ⟨b, g⟩ | ⟨e, g⟩ | _
  · have hg : Seating t g := hx.ok hs h
    exact hg
  · have hg : Seating t g := Run.Triple.error hx hs h
    exact hg
  · trivial

theorem seating_unregister (w : ℕ) :
    Run.Keeps (fun s : State (Point Obj) => Seating t s.game) (unregister w) := by
  refine .bind (.modify (fun _ h => h)) (fun _ => .bind ?_ (fun _ => .modify (fun _ h => h)))
  refine Run.Keeps.bind (x := Run.get) (fun _ h => h) (fun s => ?_)
  cases s.players.get (s.workers w).name with
  | none => exact .pure ()
  | some _ => exact .bind (.assertSome _ _) (fun p =>
      .bind (seating_onGame (seating_disconnect p)) (fun _ => .modify (fun _ h => h)))

/-- **Whoever leaves** takes no name from the game's table. -/
theorem players_of_unregister (hl : (unregister w).Leaves s s') :
    s'.game.players = s.game.players :=
  (seating_unregister (t := s.game.players) w).leaves rfl hl

/-- **What is no login** gives the game no player. -/
theorem players_of_leaves {fuel : ℕ} {d : Deed} (hd : ∀ w name pass r g b,
    d ≠ .session (.login w (.string name) pass r g b)) (hl : (d.handler S fuel).Leaves s s') :
    s'.game.players = s.game.players := by
  suffices hkeeps : Run.Keeps (fun t => Seating s.game.players t.game) (d.handler S fuel) from
    hkeeps.leaves rfl hl
  cases d with
  | session e =>
    cases e with
    | connect socket peer =>
      exact .bind (.modify (fun _ h => h)) (fun _ => .bind (.assertSome _ _) (fun _ =>
        .modify (fun _ h => h)))
    | login w name pass r g b =>
      refine Run.Keeps.bind (x := Run.get) (fun _ h => h) (fun _ => ?_)
      cases name with
      | string name => exact absurd rfl (hd _ _ _ _ _ _)
      | _ => exact seating_unregister w
    | chat w text =>
      exact Run.Keeps.bind (x := Run.get) (fun _ h => h) (fun _ => seating_onGame (keeps_send _))
    | disconnect w => exact seating_unregister w
  | act w e method x y =>
    exact Run.Keeps.bind (x := Run.get) (fun _ h => h) (fun _ =>
      .xpcall (seating_onGame (seating_act _ _ _ _ _ _ _)) (fun _ => seating_unregister w))
  | transmit w accepted =>
    refine Run.Keeps.bind (x := Run.get) (fun _ h => h) (fun u => ?_)
    show Run.Keeps _ (if _ then _ else _)
    split_ifs
    · exact .pure ()
    · refine .xpcall (.bind (.modify (fun _ h => h)) (fun _ => ?_)) (fun _ => seating_unregister w)
      show Run.Keeps _ (if _ then _ else _)
      split_ifs
      · exact .pure ()
      · exact .throw _

end Handlers

/-! ## Stretches -/

section Stretch

variable {α : Type} {P : Policy} {L : Dict.Length Obj} {g g₁ g' : Game α}

/-- The game when all it has broadcast is queued. -/
def Game.settled (g : Game α) : Game α := { g with sent := [] }

/-- **What happens to the game in one go**: it changes and nobody comes, or
somebody comes and is announced. -/
inductive Stretch (P : Policy) (L : Dict.Length Obj) (g : Game α) : Game α → Prop where
  /-- Nobody comes. -/
  | still {g' : Game α} (hc : Chain P L g g')
      (hsame : ∀ n p, g'.players.get n = some p → g.players.get n = some p) : Stretch P L g g'
  /-- Somebody comes. -/
  | arrival {g' : Game α} {name : Bytes} {p : ℕ} (hc : Chain P L g g')
      (hp : g'.players.get name = some p)
      (hother : ∀ n q, g'.players.get n = some q → n = name ∨ g.players.get n = some q) :
      Stretch P L g (g'.announced p)

theorem Stretch.chain (h : Stretch P L g g') : Chain P L g g' := by
  cases h with
  | still hc _ => exact hc
  | arrival hc hp _ => exact hc.tail (.announce hp)

/-- **Stretches, and all they broadcast.** -/
inductive Spell (P : Policy) (L : Dict.Length Obj) : Game α → List (Msg α) → Game α → Prop where
  /-- None. -/
  | nil (g : Game α) : Spell P L g [] g
  /-- One, and then others. -/
  | cons {g g₁ g' : Game α} {ms : List (Msg α)} (hs : Stretch P L g g₁)
      (h : Spell P L g₁.settled ms g') : Spell P L g (g₁.sent ++ ms) g'

theorem Spell.single (hs : Stretch P L g g') : Spell P L g g'.sent g'.settled := by
  have h := Spell.cons hs (.nil _)
  rwa [List.append_nil] at h

/-- **A player comes**, and is announced. -/
theorem addPlayer_stretch {name : Bytes} {r b c : Value α} (hmay : Comes P L g name r b c) :
    Run.Returns (addPlayer L name r b c) g (fun p g' => Stretch P L g g'
      ∧ g'.players.get name = some p) := by
  refine Run.Returns.bind (findPlayer_changes hmay) ?_
  rintro p g₁ ⟨hc, hp, hother⟩
  exact ⟨p, _, rfl, .arrival hc hp hother, hp⟩

end Stretch

end Server

end Felt
