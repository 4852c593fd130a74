import Felt.Server.Lasting

/-!
# What the game boxes hold

Everything is equipped for what it is asked, and stays so: a chess piece
stands somewhere, a pile is of some class, a box is one there is, and stands
somewhere while it is closed. So of the five cases in which a request raises –
`Answers` – one is left to players whose games are the shipped ones and who
only ask for what the class of an entity lists: whoever holds out an empty
hand to a pile is disconnected, and nobody else is
(`disconnected_iff_of_played`).

The scripts make what they make with everything it needs, and no request takes
any of it away but one: a box that is opened leaves its field. It is not asked to
be opened again with effect, so it need not stand anywhere then.
-/

namespace Felt

namespace Server

open Box (Point)

variable {α : Type}

/-- **An entity that is equipped** for what it is asked. -/
structure Entity.Equipped (v : Entity) : Prop where
  /-- A chess piece stands somewhere. -/
  piece : v.kind = .chessPiece → v.parent ≠ none
  /-- A pile is of some class. -/
  pile : v.kind = .pile → v.item ≠ none
  /-- A box is one there is. -/
  box : v.kind = .box → ∃ name, v.game = some name ∧ (name = bytes "chess" ∨ name = bytes "go")
  /-- A closed box stands somewhere. -/
  closed : v.kind = .box → v.opened = false → v.parent ≠ none

/-- **Everything is equipped.** -/
def Equipped (g : Game α) : Prop := ∀ e, (g.entities e).Equipped

/-- What is not deprived of its parent stays equipped. -/
theorem Entity.Equipped.same {v v' : Entity} (h : v.Equipped) (hkind : v'.kind = v.kind)
    (hitem : v'.item = v.item) (hgame : v'.game = v.game) (hopened : v'.opened = v.opened)
    (hparent : v.parent ≠ none → v'.parent ≠ none) : v'.Equipped where
  piece hk := hparent (h.piece (hkind ▸ hk))
  pile hk := hitem ▸ h.pile (hkind ▸ hk)
  box hk := hgame ▸ h.box (hkind ▸ hk)
  closed hk ho := hparent (h.closed (hkind ▸ hk) (hopened ▸ ho))

/-- What is neither a piece, nor a pile, nor a box needs nothing. -/
theorem Entity.equipped_of_kind {v : Entity} (hpiece : v.kind ≠ .chessPiece)
    (hpile : v.kind ≠ .pile) (hbox : v.kind ≠ .box) : v.Equipped :=
  ⟨fun h => absurd h hpiece, fun h => absurd h hpile, fun h => absurd h hbox,
    fun h => absurd h hbox⟩

section Equipped

variable {L : Dict.Length Obj} {g : Game α}

theorem equipped_send (call : (Obj → Packed) → Call α) :
    Run.Keeps Equipped (send call : Action α Unit) := .modify (fun _ h => h)

theorem Equipped.mapEntity (h : Equipped g) (e : ℕ) {f : Entity → Entity}
    (hf : (f (g.entities e)).Equipped) : Equipped (g.mapEntity e f) := by
  intro i
  rw [mapEntity_eq]
  show (changeAt e f i (g.entities i)).Equipped
  unfold changeAt
  split_ifs with hi
  · rw [hi]
    exact hf
  · exact h i

/-- What is moved to something stands somewhere. -/
theorem equipped_moved (h : Equipped g) (self p : ℕ) (x y : Option ℚ) :
    Equipped (g.moved self (some p) x y) := by
  intro e
  refine (h e).same rfl rfl rfl rfl (fun hparent => ?_)
  rw [moved_parent]
  split_ifs
  · nofun
  · exact hparent

theorem equipped_moveto (self p : ℕ) (x y : Option ℚ) :
    Run.Keeps Equipped (moveto self (some p) x y : Action α Unit) := by
  intro g hg
  rw [moveto_apply]
  exact equipped_moved hg self p x y

theorem Equipped.setId (h : Equipped g) (o : Obj) (id : ℕ) : Equipped (g.setId o id) := by
  cases o with
  | entity e =>
    exact h.mapEntity e (f := fun v => { v with id := some id })
      ((h e).same rfl rfl rfl rfl (fun hp => hp))
  | _ => exact h

theorem equipped_addObject (L : Dict.Length Obj) (o : Obj) :
    Run.Keeps Equipped (addObject L o : Action α Unit) := by
  refine .bind (.get_bind (fun g => ?_)) (fun _ => .get_bind (fun g =>
    .bind (.modify (fun _ h => h.setId o _)) (fun _ => .bind (equipped_send _) (fun _ =>
      .modify (fun _ h => h)))))
  cases g.idOf o with
  | none => exact .pure ()
  | some id =>
    show Run.Keeps _ (if _ then _ else _)
    split_ifs
    · exact .pure ()
    · exact .throw _

theorem Equipped.created (h : Equipped g) {v : Entity} (hv : v.Equipped) :
    Equipped (g.created L v) := by
  intro e
  by_cases he : e = g.nextEntity
  · rw [he, created_self]
    exact hv.same rfl rfl rfl rfl (fun hp => hp)
  · rw [created_of_ne L v he]
    exact h e

theorem equipped_newEntity (L : Dict.Length Obj) {v : Entity} (hid : v.id = none)
    (hv : v.Equipped) : Run.Keeps Equipped (newEntity L v [] : Action α ℕ) := by
  intro g hg
  rw [newEntity_apply L hid]
  exact hg.created hv

/-- What is made and put on something stands there. -/
theorem equipped_spawn (L : Dict.Length Obj) {v : Entity} (hid : v.id = none) (p : ℕ)
    (x y : Option ℚ) (hv : { v with parent := some p }.Equipped) :
    Run.Keeps Equipped (newEntity L v [] >>= fun e => add p e x y : Action α Unit) := by
  intro g hg
  rw [spawn_apply hid g]
  intro e
  show ((g.created L v).moved g.nextEntity (some p) x y).entities e |>.Equipped
  rw [moved_entities]
  by_cases he : e = g.nextEntity
  · rw [he, created_self]
    exact hv.same rfl rfl rfl rfl (fun _ => by simp [Entity.moved])
  · rw [created_of_ne L v he]
    refine (hg e).same rfl rfl rfl rfl (fun hparent => ?_)
    simpa [Entity.moved, he] using hparent

/-! ## What keeps everything equipped -/

theorem equipped_findPlayer (L : Dict.Length Obj) (name : Bytes) (r b c : Value α) :
    Run.Keeps Equipped (findPlayer L name r b c : Action α ℕ) := by
  refine .get_bind (fun g => ?_)
  cases g.players.get name with
  | some p => exact .bind (.modify (fun _ h => h)) (fun _ => .pure _)
  | none =>
    exact .bind (.get_bind (fun _ => .bind (.modify (fun _ h => h)) (fun _ =>
      .bind (equipped_addObject L _) (fun _ => .pure _)))) (fun _ =>
        .bind (.modify (fun _ h => h)) (fun _ => .pure _))

theorem equipped_addPlayer (L : Dict.Length Obj) (name : Bytes) (r b c : Value α) :
    Run.Keeps Equipped (addPlayer L name r b c : Action α ℕ) :=
  .bind (equipped_findPlayer L name r b c) (fun _ => .bind (equipped_send _) (fun _ => .pure _))

theorem Kind.equipped_entity (k : Kind) (hk : k.isBoard = true) (name : Bytes) :
    (k.entity name).Equipped := by
  refine Entity.equipped_of_kind ?_ ?_ ?_
  all_goals
    rintro (rfl : k = _)
    cases hk

/-! ## The scripts -/

theorem equipped_addField (L : Dict.Length Obj) (name : Bytes) :
    Run.Keeps Equipped (addField L name : Action α ℕ) := by
  refine .bind (.get_bind (fun g => ?_)) (fun _ => .bind (equipped_addObject L _) (fun _ =>
    .pure _))
  cases g.fields.get name with
  | some f => exact .pure f
  | none =>
    exact .bind (equipped_newEntity L rfl (Kind.equipped_entity .field rfl _)) (fun _ =>
      .bind (.modify (fun _ h => h)) (fun _ => .pure _))

/-- A chess piece is put on its board. -/
theorem equipped_addPiece (L : Dict.Length Obj) (board : ℕ) (name : Bytes) (x y : ℚ) :
    Run.Keeps Equipped (addPiece L board name x y : Action α Unit) :=
  equipped_spawn L rfl board _ _ ⟨fun _ => nofun, nofun, nofun, nofun⟩

theorem equipped_addPieces (L : Dict.Length Obj) (board : ℕ) (colour : Bytes) :
    Run.Keeps Equipped (addPieces L board colour : Action α Unit) :=
  .bind (.forList (fun _ => equipped_addPiece L _ _ _ _) _) (fun _ =>
    .bind (.forList (fun _ => .bind (equipped_addPiece L _ _ _ _) (fun _ =>
      .bind (equipped_addPiece L _ _ _ _) (fun _ => equipped_addPiece L _ _ _ _))) _) (fun _ =>
        .bind (equipped_addPiece L _ _ _ _) (fun _ => equipped_addPiece L _ _ _ _)))

theorem bowl_equipped (name stone : Bytes) (x y : ℚ) : (bowl name stone x y).Equipped :=
  ⟨nofun, fun _ => nofun, nofun, nofun⟩

theorem equipped_boxScript (L : Dict.Length Obj) (name : Bytes) :
    Run.Keeps Equipped (boxScript L name : Action α Unit) := by
  show Run.Keeps _ (if _ then _ else if _ then _ else _)
  split_ifs
  · exact .bind (equipped_addField L _) (fun _ =>
      .bind (equipped_newEntity L rfl (Kind.equipped_entity .chessBoard rfl _)) (fun _ =>
        .bind (equipped_moveto _ _ _ _) (fun _ => .forList (fun _ => equipped_addPieces L _ _) _)))
  · exact .bind (equipped_addField L _) (fun _ =>
      .bind (equipped_newEntity L rfl (Kind.equipped_entity .goBoard rfl _)) (fun _ =>
        .bind (equipped_moveto _ _ _ _) (fun _ =>
          .bind (equipped_newEntity L rfl (bowl_equipped _ _ _ _)) (fun _ =>
            .bind (equipped_moveto _ _ _ _) (fun _ =>
              .bind (equipped_newEntity L rfl (bowl_equipped _ _ _ _)) (fun _ =>
                equipped_moveto _ _ _ _))))))
  · exact .throw _

theorem equipped_openGame (L : Dict.Length Obj) (name : Bytes) :
    Run.Keeps Equipped (openGame L name : Action α Unit) := by
  refine .get_bind (fun g => ?_)
  show Run.Keeps _ (if _ then _ else _)
  split_ifs
  · exact .pure ()
  · exact .bind (equipped_boxScript L name) (fun _ => .modify (fun _ h => h))

theorem equipped_openGameboxes (L : Dict.Length Obj) {games : List Bytes}
    (hgames : ∀ name ∈ games, name = bytes "chess" ∨ name = bytes "go") :
    Run.Keeps Equipped (openGameboxes L games : Action α Unit) := by
  refine .bind (equipped_addField L _) (fun field => .forList_of_mem (fun box hbox => ?_))
  have hname := hgames box.1 (List.fst_mem_of_mem_zipIdx hbox)
  exact equipped_spawn L rfl field _ _
    ⟨nofun, nofun, fun _ => ⟨box.1, rfl, hname⟩, fun _ _ => nofun⟩

/-- **A server that has the shipped games starts equipped.** -/
theorem equipped_start (L : Dict.Length Obj) {games : List Bytes}
    (hgames : ∀ name ∈ games, name = bytes "chess" ∨ name = bytes "go") :
    Equipped (Game.start L games : Game α) :=
  start_of_keeps (fun _ h => h) (equipped_openGameboxes L hgames)
    (fun _ => Kind.equipped_entity .field rfl _)

/-! ## Requests -/

/-- **A box is opened**, and then it need not stand anywhere. -/
theorem equipped_openBox (L : Dict.Length Obj) {self : ℕ} (h : Sound Kind.Below g)
    (hself : g.Listed (.entity self)) (hbox : (g.entities self).kind = .box) (hg : Equipped g) :
    Run.Triple (· = g) (GameBox.openBox L self) (fun _ => Equipped) (fun _ => Equipped) := by
  refine .get_bind (fun t ht => ?_)
  subst ht
  show Run.Triple _ (if _ then _ else _) _ _
  split_ifs
  · exact .pure (fun _ hs => hs ▸ hg)
  refine .bind (M := fun _ s => s = t) (.assertSome (fun _ _ _ hs => hs) (fun _ _ hs => hs ▸ hg))
    (fun name => ?_)
  have hopen : Run.Triple (· = t) (openGame L name)
      (fun _ s => Equipped s ∧ (s.entities self).kind = .box) (fun _ => Equipped) := by
    refine Run.Ends.triple (fun s hs => ?_)
    subst hs
    refine ((openGame_ends (L := L) (hosts_of_below rfl) (Building.start (P := Policy.shipped) h
      (fun _ _ => trivial)) name (fun _ _ => trivial)).and_keeps
      (equipped_openGame L name) hg).weaken
      (fun _ s' hs' => ⟨hs'.2, ?_⟩) (fun _ _ hs' => hs'.2)
    rw [(h.later_of_chain hs'.1.chain).kind self (h.entity self hself), hbox]
  refine hopen.bind (fun _ => .bind (M := fun _ s => Equipped s
    ∧ (s.entities self).kind = .box ∧ (s.entities self).opened = true) (.modify ?_) (fun _ =>
      .get_bind (fun s hs => .bind (M := fun _ s' => s' = s) (.assertSome (fun _ _ _ hs' => hs')
        (fun _ _ hs' => hs' ▸ hs.1)) (fun p => ?_))))
  · rintro s ⟨hs, hkind⟩
    refine ⟨hs.mapEntity self (f := fun v => { v with opened := true })
      ⟨(hs self).piece, (hs self).pile, (hs self).box, fun _ ho => absurd ho (by simp)⟩, ?_, ?_⟩
    · rw [mapEntity_eq, ← hkind]
      refine changeAt_field Entity.kind ?_ _ _ _
      exact fun _ => rfl
    · rw [mapEntity_eq]
      exact congrArg Entity.opened (if_pos rfl)
  · -- it is open by now
    refine .bind (M := fun _ => Equipped) (.modify ?_) (fun _ => .modify ?_)
    · rintro s' rfl
      obtain ⟨hs, hkind, hopened⟩ := hs
      refine hs.mapEntity self (f := fun v => { v with parent := none })
        ⟨fun hk => ?_, (hs self).pile, (hs self).box, fun _ ho => ?_⟩
      · rw [hkind] at hk
        cases hk
      · rw [hopened] at ho
        cases ho
    · exact fun s' hs' => hs'.mapEntity p ((hs' p).same rfl rfl rfl rfl (fun hp => hp))

/-- A stone is deleted. -/
theorem Equipped.deleted (h : Equipped g) {e : ℕ} (hkind : (g.entities e).kind = .goPiece)
    (id : ℕ) : Equipped (g.deleted e id) := by
  intro i
  show ((g.entities i).moved e _ none none none i).Equipped
  by_cases hi : i = e
  · refine Entity.equipped_of_kind ?_ ?_ ?_
    all_goals
      rw [hi]
      show (g.entities e).kind ≠ _
      rw [hkind]
      nofun
  · exact (h i).same rfl rfl rfl rfl (fun hparent => by simpa [Entity.moved, hi] using hparent)

/-- **Equipment is steady.** -/
theorem steady_equipped (L : Dict.Length Obj) : Steady L (Equipped (α := α)) where
  said := equipped_send
  held _ _ _ h := h
  heldBy _ e _ h := h.mapEntity e ((h e).same rfl rfl rfl rfl (fun hp => hp))
  moved _ e p x y h := equipped_moved h e p x y
  count _ e _ h := h.mapEntity e ((h e).same rfl rfl rfl rfl (fun hp => hp))
  stone _ _ h := h.created (Entity.equipped_of_kind nofun nofun nofun)
  deleted _ _ id _ hkind h := h.deleted hkind id

end Equipped

/-- **Equipment lasts.** -/
theorem lasting_equipped (S : Site) (fuel : ℕ) : Lasting S fuel Equipped :=
  (steady_equipped S.length).lasting (fun _ h => h) (equipped_addPlayer S.length)
    (fun h hself hbox hg => equipped_openBox S.length h hself hbox hg)

/-! ## Who is disconnected -/

section Disconnected

variable {s s' : State (Point Obj)} {w : ℕ}

/-- **A worker that has left** is registered no more. -/
theorem Left.not_registered {P : Policy} {L : Dict.Length Obj} (h : Left P L w s s') :
    ¬s'.Registered w := by
  have hparted : ¬(s.parted w).Registered w := fun hw => by
    change (s.clients.erase (s.workers w).socket).get (s.workers w).socket = some w at hw
    rw [Dict.get_erase, if_pos rfl] at hw
    cases hw
  cases h with
  | guest _ => exact hparted
  | @player p g _ _ _ _ =>
    exact fun hw => hparted ((SameTables.settle (s.parted w) g).registered.mp hw)
  | impostor _ _ => exact hparted

/-- Unregistering ends. -/
theorem exists_unregistered (w : ℕ) (s : State (Point Obj)) :
    ∃ s', (unregister w).Leaves s s' ∧ ¬s'.Registered w := by
  have hends : ∃ s', (unregister w).Leaves s s' := by
    rcases hname : s.players.get (s.workers w).name with _ | v
    · exact ⟨_, Or.inl ⟨(), unregister_guest hname⟩⟩
    · rcases hp : (s.workers w).player with _ | p
      · exact ⟨_, Or.inr ⟨_, unregister_error hname hp⟩⟩
      · obtain ⟨_, g, hg, -⟩ := Player.disconnect_changes (P := Policy.shipped)
          (L := Dict.Length.first Obj) p s.game (fun _ _ _ => trivial)
        exact ⟨_, Or.inl ⟨(), unregister_player (by rw [hname]; nofun) hp hg⟩⟩
  obtain ⟨s', hs'⟩ := hends
  exact ⟨s', hs', (left_of_unregister (P := Policy.shipped) (L := Dict.Length.first Obj)
    (fun _ _ _ _ _ => trivial) hs').not_registered⟩

/-- **In a game that is equipped** an entity answers whatever its class lists,
but for an empty hand that is held out to a pile. -/
theorem Equipped.answers_iff {α : Type} {g : Game α} (hg : Equipped g) {e p : ℕ} {method : Method}
    (hmethod : method ∈ (g.entities e).kind.actions) : Answers g e method p
      ↔ ¬(method = .drop ∧ (g.entities e).kind = .pile ∧ (g.people p).held = none) := by
  constructor
  · rintro h ⟨hdrop, hpile, hempty⟩
    exact h.hand hdrop hpile hempty
  · refine fun h => ⟨hmethod, fun hdrop hpile hempty => h ⟨hdrop, hpile, hempty⟩,
      fun _ => (hg e).piece, fun htake _ => (hg e).pile ?_, fun hopen hclosed => ?_⟩
    · rw [htake] at hmethod
      revert hmethod
      cases (g.entities e).kind <;> decide
    · have hbox : (g.entities e).kind = .box := by
        rw [hopen] at hmethod
        revert hmethod
        cases (g.entities e).kind <;> decide
      obtain ⟨name, hname, hthere⟩ := (hg e).box hbox
      exact ⟨(hg e).closed hbox hclosed, name, hname, Or.inr hthere⟩

/-- **When a request ends the connection** of a player, in a game that is sound
and equipped: when an empty hand is held out to a pile. -/
theorem Equipped.disconnected_iff {S : Site} {fuel : ℕ} (hequipped : Equipped s.game)
    (hmanned : Manned Policy.shipped s) {p e : ℕ} (hw : s.Registered w)
    (hp : (s.workers w).player = some p) (he : s.game.Listed (.entity e)) {method : Method}
    (hmethod : method ∈ (s.game.entities e).kind.actions) (x y : ℚ) :
    ∃ s', ((Deed.act w e method (some x) (some y)).handler S fuel).Leaves s s' ∧
      (¬s'.Registered w ↔ method = .drop ∧ (s.game.entities e).kind = .pile
        ∧ (s.game.people p).held = none) := by
  have hiff := act_ok_iff (L := S.length) hmanned.sound he (hmanned.staff w p hp) fuel method x y
  rw [hequipped.answers_iff hmethod] at hiff
  have hrun : ∀ t, (Deed.act w e method (some x) (some y)).handler S fuel t = Run.xpcall
      (onGame (act S.length (fuel + 1) e method (t.workers w).player (some x) (some y)))
      (fun _ => disconnect w) t := fun _ => rfl
  have hends := act_ends (P := Policy.shipped) (L := S.length) (hosts_of_below rfl) hmanned.sound he
    (⟨hmanned.staff w, fun _ _ => trivial⟩ : Asker Policy.shipped s.game (s.workers w).player)
    (may_shipped (S := S) (.act w e method (some x) (some y)) s).1 fuel (some x) (some y)
  rw [hp] at hends
  rcases hends with ⟨_, g, hg, -⟩ | ⟨err, g, hg, -⟩
  · refine ⟨s.settle g, Or.inl ⟨(), ?_⟩, iff_of_false ?_ (hiff.mp ⟨g, hg⟩)⟩
    · rw [hrun, hp, Run.xpcall, onGame, hg]
    · exact not_not_intro ((SameTables.settle s g).registered.mpr hw)
  · obtain ⟨s', hl, hgone⟩ := exists_unregistered w (s.settle g)
    refine ⟨s', ?_, iff_of_true hgone (not_not.mp (fun hno => ?_))⟩
    · refine Or.inl ⟨(), ?_⟩
      rw [hrun, hp]
      refine Run.Ends.xpcall_of_leaves (e := .game err) ?_ hl
      rw [onGame, hg]
    · obtain ⟨g', hok⟩ := hiff.mpr hno
      rw [hg] at hok
      cases hok

/-- **Who is disconnected for a request.** The games are the shipped ones;
then in every state that a run reaches, whoever the players are and whatever
they did, a player who asks an entity for something its class lists, and gives
coordinates, loses the connection if they hold out an empty hand to a pile,
and in no other case. -/
theorem disconnected_iff_of_played (S : Site) (fuel : ℕ) (games : List Bytes)
    (hgames : ∀ name ∈ games, name = bytes "chess" ∨ name = bytes "go") (s : State (Point Obj))
    (hs : Played S fuel (fun _ _ => True) (State.opening S games) s) (w p e : ℕ)
    (hw : s.Registered w) (hp : (s.workers w).player = some p) (he : s.game.Listed (.entity e))
    (method : Method) (hmethod : method ∈ (s.game.entities e).kind.actions) (x y : ℚ) :
    ∃ s', ((Deed.act w e method (some x) (some y)).handler S fuel).Leaves s s' ∧
      (¬s'.Registered w ↔ method = .drop ∧ (s.game.entities e).kind = .pile
        ∧ (s.game.people p).held = none) :=
  ((lasting_equipped S fuel).played (equipped_start S.length hgames) hs).disconnected_iff
    (manned_of_played hs) hw hp he hmethod x y

/-- Somebody opens the go box, and holds out an empty hand to a bowl. -/
theorem disconnected_iff_of_played_bowl : ∃ s s' : State (Point Obj), s.Registered 0
    ∧ ((Deed.act 0 4 .drop (some 0) (some 0)).handler Site.plain 5).Leaves s s'
    ∧ ¬s'.Registered 0 := by
  obtain ⟨s, hs, hw, hp, he, hkind, hempty⟩ := exists_played (fun _ _ => True) Site.plain 5
    (State.opening Site.plain [bytes "go"])
    [.session (.connect 0 (some [])),
      .session (.login 0 (.string (bytes "a")) .nil .nil .nil .nil), .act 0 1 .openBox none none]
    (Q := fun s => s.Registered 0 ∧ (s.workers 0).player = some 0 ∧ s.game.Listed (.entity 4)
      ∧ (s.game.entities 4).kind = .pile ∧ (s.game.people 0).held = none) (by decide +kernel)
  obtain ⟨s', hl, hiff⟩ := disconnected_iff_of_played Site.plain 5 [bytes "go"]
    (fun _ hname => Or.inr (List.mem_singleton.mp hname)) s hs 0 0 4 hw hp he .drop
    (by rw [hkind]; decide) 0 0
  exact ⟨s, s', hw, hl, hiff.mpr ⟨rfl, hkind, hempty⟩⟩

end Disconnected

end Server

end Felt
