import Felt.Server.Sound

/-!
# What a method of the game can change

Whatever the players do, the game goes from one sound state to the next by a
few kinds of changes: something is said, a token changes hands, an entity is
made and put somewhere, a field or a player comes, and so on. `Change` has
them all, each with what it starts from; that every one leaves a sound game is
proved here once, and that every method is a sequence of them in
`Felt.Server.Deed`. What is to hold of whole runs is proved change by change.

A `Policy` says which of the changes may occur that decide whether a client can
keep up: ids that are given out again, colours that nobody is told of, entities
that are nowhere. Most of the time all of them may.

The list of changes is longer than that of the assignments in the source, as a
change is where the game is sound again: a pick-up is one change, though it
writes two fields and moves an entity. What is broadcast in between is taken
apart later, for the clients (`Felt.Server.Update`).

So there are two ways to prove something of every run. What is a fact about the
game alone is proved change by change. What is easier to see of a method is proved
method by method (`Felt.Server.Lasting`).
-/

namespace Felt

namespace Server

variable {α : Type}

/-- **Which changes may occur.** -/
structure Policy where
  /-- Which entities may stand on which. -/
  fits : Kind → Kind → Prop
  /-- A new field may be made. -/
  fields : Prop
  /-- A player may come back with other colours. -/
  colours : Prop
  /-- An entity that has a parent may be left without one. -/
  nowhere : Prop
  /-- The id may be given out. -/
  fresh : ℕ → Prop
  /-- A token may be left in nobody's hand and without a parent. -/
  loses : Prop
  /-- The player may take something. -/
  hand : ℕ → Prop
  /-- Entities may be moved and deleted by scripts. -/
  scripts : Prop

/-! ## The states that changes leave -/

/-- The game when an entity has been made and registered. -/
def Game.created (L : Dict.Length Obj) (v : Entity) (g : Game α) : Game α :=
  (g.alloc v).enrolled (.entity g.nextEntity) (L.border g.objects + 1)

/-- The game when an entity has been made and put on another one. -/
def Game.spawned (L : Dict.Length Obj) (v : Entity) (p : ℕ) (x y : Option ℚ)
    (g : Game α) : Game α :=
  (g.created L v).moved g.nextEntity (some p) x y

/-- The game when a player has taken an entity that was made for them. -/
def Game.taken (L : Dict.Length Obj) (v : Entity) (p : ℕ) (g : Game α) : Game α :=
  (g.created L v).pickedUp p g.nextEntity

/-- The game when an entity without children has been deleted. -/
def Game.deleted (e id : ℕ) (g : Game α) : Game α :=
  (g.moved e none none none).struck (.entity e) id

/-- The game when a field of that name has been made. -/
def Game.opened (L : Dict.Length Obj) (name : Bytes) (g : Game α) : Game α :=
  let g' := g.created L (Kind.field.entity name)
  { g' with fields := g'.fields.set name g.nextEntity }

/-- The game when a player who is there has come back. -/
def Game.returned (p : ℕ) (name : Bytes) (r g b : Value α) (s : Game α) : Game α :=
  s.mapPlayer p (fun v =>
    { v with name := name, r := override v.r r, g := override v.g g, b := override v.b b })

/-- The game when it has been told that a player is there. -/
def Game.announced (p : ℕ) (g : Game α) : Game α :=
  g.say (fun packed => .addPlayer (packed .game) (packed (.player p)))

/-- Whether a call is one of a text: it mentions no object, and changes nothing
on a client. -/
def Call.isText : Call α → Bool
  | .message _ => true
  | .chat _ _ => true
  | _ => false

/-- **A change of the game.** -/
inductive Change (P : Policy) (L : Dict.Length Obj) (g : Game α) : Game α → Prop where
  /-- Something is said. -/
  | say {call : Call α} (hcall : call.isText = true) : Change P L g (g.say (fun _ => call))
  /-- A token is picked up. -/
  | pickup {p item : ℕ} (hmay : P.hand p) (hp : p < g.nextPlayer) (hitem : g.Listed (.entity item))
      (htoken : (g.entities item).kind.isToken = true) (hempty : (g.people p).held = none)
      (hfree : (g.entities item).heldBy = none) : Change P L g (g.pickedUp p item)
  /-- What is held is dropped. -/
  | drop {p item onto : ℕ} {x y : Option ℚ} (hheld : (g.people p).held = some item)
      (honto : g.Listed (.entity onto))
      (hfits : P.fits (g.entities item).kind (g.entities onto).kind) :
      Change P L g (g.dropped p item onto x y)
  /-- What is held is dropped on a pile, and is no more. -/
  | putBack {p item pile id : ℕ} {x y : Option ℚ} (hmay : P.nowhere)
      (hheld : (g.people p).held = some item) (hpile : g.Listed (.entity pile))
      (hid : g.objects.get id = some (.entity item)) (hchildren : (g.entities item).children = [])
      (hne : item ≠ pile) :
      Change P L g ((g.dropped p item pile x y).deleted item id)
  /-- What is held is let go. -/
  | letGo {p item : ℕ} (hheld : (g.people p).held = some item)
      (hmay : (g.entities item).parent = none → P.loses) : Change P L g (g.letGo p item)
  /-- An entity is made and put on another one. -/
  | spawn {v : Entity} {p : ℕ} {x y : Option ℚ} (hv : v.Blank) (hp : g.Listed (.entity p))
      (hfits : P.fits v.kind (g.entities p).kind) (hfresh : P.fresh (L.border g.objects + 1)) :
      Change P L g (g.spawned L v p x y)
  /-- An entity is made and taken. -/
  | take {v : Entity} {p : ℕ} (hmay : P.hand p) (hv : v.Blank) (htoken : v.kind.isToken = true)
      (hp : p < g.nextPlayer) (hempty : (g.people p).held = none)
      (hfresh : P.fresh (L.border g.objects + 1)) : Change P L g (g.taken L v p)
  /-- A token is made, and that is all. -/
  | stray {v : Entity} (hmay : P.loses) (hv : v.Blank) (htoken : v.kind.isToken = true)
      (hfresh : P.fresh (L.border g.objects + 1)) :
      Change P L g (g.created L v)
  /-- An entity in no relation to others is deleted. -/
  | delete {e id : ℕ} (hmay : P.scripts) (hid : g.objects.get id = some (.entity e))
      (hparent : (g.entities e).parent = none) (hchildren : (g.entities e).children = [])
      (hby : (g.entities e).heldBy = none) (hkind : (g.entities e).kind ≠ .field) :
      Change P L g (g.deleted e id)
  /-- An entity is moved. -/
  | move {e : ℕ} {parent : Option ℕ} {x y : Option ℚ} (hmay : P.scripts)
      (he : g.Listed (.entity e))
      (hnowhere : parent = none → (g.entities e).parent ≠ none → P.nowhere)
      (hparent : ∀ p, parent = some p →
        g.Listed (.entity p) ∧ P.fits (g.entities e).kind (g.entities p).kind) :
      Change P L g (g.moved e parent x y)
  /-- A box is taken from its parent, which nobody is told. -/
  | takeOut {e p : ℕ} (hmay : P.nowhere) (hbox : (g.entities e).kind = .box)
      (hp : (g.entities e).parent = some p) :
      Change P L g (g.placed e none none none)
  /-- A field is made. -/
  | field {name : Bytes} (hmay : P.fields) (hnew : g.fields.get name = none)
      (hfresh : P.fresh (L.border g.objects + 1)) : Change P L g (g.opened L name)
  /-- An object that is registered is registered again. -/
  | again {o : Obj} {id : ℕ} (ho : g.objects.get id = some o) : Change P L g (g.enrolled o id)
  /-- A new player comes. -/
  | join {name : Bytes} {r b c : Value α} (hnew : g.players.get name = none)
      (hfresh : P.fresh (L.border g.objects + 1)) :
      Change P L g (g.seated name r b c (L.border g.objects + 1))
  /-- A player who is there comes back. -/
  | back {name : Bytes} {p : ℕ} {r b c : Value α} (hp : g.players.get name = some p)
      (hmay : g.returned p name r b c ≠ g → P.colours) : Change P L g (g.returned p name r b c)
  /-- A player is announced. -/
  | announce {name : Bytes} {p : ℕ} (hp : g.players.get name = some p) :
      Change P L g (g.announced p)
  /-- A count changes, or whether a box is opened. -/
  | tweak {e : ℕ} (opened : Bool) (count : Count) :
      Change P L g (g.mapEntity e (fun v => { v with opened := opened, count := count }))
  /-- A script has been loaded. -/
  | load {name : Bytes} : Change P L g { g with loaded := g.loaded ++ [name] }

/-- **A sequence of changes.** -/
abbrev Chain (P : Policy) (L : Dict.Length Obj) : Game α → Game α → Prop :=
  Relation.ReflTransGen (Change P L)

/-! ## Every change leaves a sound game -/

section Sound

variable {P : Policy} {L : Dict.Length Obj} {fits : Kind → Kind → Prop} {g g' : Game α}

theorem sameObjects_released (p item : ℕ) (g : Game α) : SameObjects g (g.released p item) :=
  (SameObjects.withHeld g p none).trans (.withHeldBy _ item none)

theorem sameObjects_dropped (p item onto : ℕ) (x y : Option ℚ) (g : Game α) :
    SameObjects g (g.dropped p item onto x y) := by
  unfold Game.dropped
  exact ((sameObjects_released p item g).trans (.moved _ item (some onto) x y)).trans (.say _ _)

theorem sameObjects_pickedUp (p item : ℕ) (g : Game α) : SameObjects g (g.pickedUp p item) := by
  unfold Game.pickedUp
  exact ((SameObjects.withHeld g p (some item)).trans (.withHeldBy _ item (some p))).trans
    (.say _ _)

theorem Sound.pickedUp (h : Sound fits g) {p item : ℕ} (hp : p < g.nextPlayer)
    (hitem : g.Listed (.entity item)) (htoken : (g.entities item).kind.isToken = true)
    (hempty : (g.people p).held = none) (hfree : (g.entities item).heldBy = none) :
    Sound fits (g.pickedUp p item) := by
  unfold Game.pickedUp
  exact (h.grabbed hp hitem htoken hempty hfree).say _

theorem Sound.dropped (h : Sound fits g) {p item onto : ℕ} {x y : Option ℚ}
    (hheld : (g.people p).held = some item) (honto : g.Listed (.entity onto))
    (hfits : fits (g.entities item).kind (g.entities onto).kind) :
    Sound fits (g.dropped p item onto x y) := by
  have hr := sameObjects_released p item g
  unfold Game.dropped
  refine ((h.released hheld).moved ((hr.listed _).mpr (h.held p item hheld).1) ?_).say _
  intro q hq
  obtain rfl := Option.some.inj hq
  rw [hr.kind, hr.kind]
  exact ⟨(hr.listed _).mpr honto, hfits⟩

theorem Sound.created (h : Sound fits g) {v : Entity} (hv : v.Blank) :
    Sound fits (g.created L v) :=
  (h.alloc hv).enrolled (h.fresh le_rfl).1 (objects_free L g) (Nat.succ_ne_zero _)
    (Nat.lt_succ_self _)

theorem created_listed (L : Dict.Length Obj) (v : Entity) (g : Game α) (o : Obj) :
    (g.created L v).Listed o ↔ o = .entity g.nextEntity ∨ g.Listed o :=
  enrolled_listed (g := g.alloc v) (objects_free L g) o

/-- The entity that is made. -/
theorem created_self (L : Dict.Length Obj) (v : Entity) (g : Game α) :
    (g.created L v).entities g.nextEntity = { v with id := some (L.border g.objects + 1) } := by
  unfold Game.created
  rw [enrolled_entities, if_pos rfl, alloc_entities, if_pos rfl]

/-- The entities there were. -/
theorem created_of_ne (L : Dict.Length Obj) (v : Entity) {g : Game α} {e : ℕ}
    (he : e ≠ g.nextEntity) : (g.created L v).entities e = g.entities e := by
  unfold Game.created
  rw [enrolled_entities, if_neg (fun h => he (Obj.entity.inj h).symm), alloc_entities, if_neg he]

theorem Sound.created_of_listed (h : Sound fits g) (v : Entity) {e : ℕ}
    (he : g.Listed (.entity e)) :
    (g.created L v).entities e = g.entities e :=
  created_of_ne L v (h.entity e he).ne

theorem Sound.spawned (h : Sound fits g) {v : Entity} {p : ℕ} {x y : Option ℚ} (hv : v.Blank)
    (hp : g.Listed (.entity p)) (hfits : fits v.kind (g.entities p).kind) :
    Sound fits (g.spawned L v p x y) := by
  refine (h.created hv).moved ((created_listed L v g _).mpr (Or.inl rfl)) ?_
  intro q hq
  obtain rfl := Option.some.inj hq
  rw [created_self, h.created_of_listed v hp]
  exact ⟨(created_listed L v g _).mpr (Or.inr hp), hfits⟩

theorem Sound.taken (h : Sound fits g) {v : Entity} {p : ℕ} (hv : v.Blank)
    (htoken : v.kind.isToken = true) (hp : p < g.nextPlayer) (hempty : (g.people p).held = none) :
    Sound fits (g.taken L v p) := by
  refine (h.created hv).pickedUp hp ((created_listed L v g _).mpr (Or.inl rfl)) ?_ hempty ?_
  · rw [created_self]
    exact htoken
  · rw [created_self]
    exact hv.heldBy

/-- An entity without children has none when it has moved elsewhere. -/
theorem movedChildren_nil {self : ℕ} {was parent : Option ℕ} (h : parent ≠ some self) :
    movedChildren self was parent self [] = [] := by
  unfold movedChildren
  rw [if_neg h]
  split_ifs <;> rfl

theorem Sound.deleted (h : Sound fits g) {e id : ℕ} (hid : g.objects.get id = some (.entity e))
    (hchildren : (g.entities e).children = []) (hby : (g.entities e).heldBy = none)
    (hkind : (g.entities e).kind ≠ .field) : Sound fits (g.deleted e id) := by
  refine (h.moved ⟨id, hid⟩ (fun p hp => ?_)).struck hid ?_ ?_ hby hkind
  · cases hp
  · rw [moved_parent, if_pos rfl]
  · rw [moved_children, hchildren]
    exact movedChildren_nil nofun

/-- **Other rules of what stands on what**, which the game meets too. -/
theorem Sound.refit {fits' : Kind → Kind → Prop} (h : Sound fits g)
    (hfits : ∀ e p, (g.entities e).parent = some p →
      fits' (g.entities e).kind (g.entities p).kind) : Sound fits' g :=
  { h with parent := fun e p hp => ⟨(h.parent e p hp).1, (h.parent e p hp).2.1, hfits e p hp⟩ }

section Dropped

variable (p item onto : ℕ) (x y : Option ℚ) (g) (e : ℕ)

theorem dropped_parent : ((g.dropped p item onto x y).entities e).parent
    = if e = item then some onto else (g.entities e).parent :=
  (congrFun (parents_dropped p item onto x y g) e).trans (Function.update_apply _ _ _ _)

theorem dropped_children : ((g.dropped p item onto x y).entities e).children
    = movedChildren item (g.entities item).parent (some onto) e (g.entities e).children := by
  show movedChildren item ((g.released p item).entities item).parent (some onto) e
    ((g.released p item).entities e).children = _
  have hrel := withHeldBy_tree (g.withHeld p none) item none
  rw [show ((g.released p item).entities item).parent = _ from (hrel item).1,
    show ((g.released p item).entities e).children = _ from (hrel e).2]
  rfl

theorem dropped_heldBy : ((g.dropped p item onto x y).entities e).heldBy
    = if e = item then none else (g.entities e).heldBy := by
  show ((g.released p item).entities e).heldBy = _
  rw [released_entities]
  unfold changeAt
  split_ifs <;> rfl

end Dropped

/-- **What is put back on a pile** is deleted, and nothing else has changed
but the hand. -/
theorem Sound.putBack (h : Sound fits g) {p item pile id : ℕ} {x y : Option ℚ}
    (hheld : (g.people p).held = some item) (hpile : g.Listed (.entity pile))
    (hid : g.objects.get id = some (.entity item)) (hchildren : (g.entities item).children = [])
    (hne : item ≠ pile) : Sound fits ((g.dropped p item pile x y).deleted item id) := by
  have hsame := sameObjects_dropped p item pile x y g
  have htrue : Sound (fun _ _ => True) g := h.refit (fun _ _ _ => trivial)
  have htoken := (h.held p item hheld).2
  have hid' : (g.dropped p item pile x y).objects.get id = some (.entity item) := by
    rw [hsame.objects, hid]
  refine ((htrue.dropped hheld hpile trivial).deleted hid' ?_ ?_ ?_).refit (fun e q hq => ?_)
  · rw [dropped_children, hchildren]
    exact movedChildren_nil (fun hp => hne (Option.some.inj hp).symm)
  · rw [dropped_heldBy, if_pos rfl]
  · rw [hsame.kind]
    intro hfield
    rw [hfield] at htoken
    cases htoken
  · -- every parent there is now was one before
    have hkind : ∀ i, (((g.dropped p item pile x y).deleted item id).entities i).kind
        = (g.entities i).kind := fun i => hsame.kind i
    have hq' : (if e = item then none else ((g.dropped p item pile x y).entities e).parent)
      = some q := hq
    split_ifs at hq' with he
    rw [dropped_parent, if_neg he] at hq'
    rw [hkind, hkind]
    exact (h.parent e q hq').2.2

theorem Sound.opened (h : Sound fits g) {name : Bytes} : Sound fits (g.opened L name) := by
  refine (h.created (Kind.blank _ _)).named ((created_listed L _ g _).mpr (Or.inl rfl)) ?_
  rw [created_self]
  rfl

theorem sameLinks_returned {name : Bytes} {p : ℕ} (hname : (g.people p).name = name)
    (r b c : Value α) : SameLinks g (g.returned p name r b c) :=
  sameLinks_mapPlayer g p rfl hname.symm rfl

/-- **A change leaves a sound game.** -/
theorem Sound.change (h : Sound P.fits g) (hc : Change P L g g') : Sound P.fits g' := by
  cases hc with
  | say _ => exact h.say _
  | pickup _ hp hitem htoken hempty hfree => exact h.pickedUp hp hitem htoken hempty hfree
  | drop hheld honto hfits => exact h.dropped hheld honto hfits
  | putBack _ hheld hpile hid hchildren hne => exact h.putBack hheld hpile hid hchildren hne
  | letGo hheld _ => exact h.letGo hheld
  | spawn hv hp hfits _ => exact h.spawned hv hp hfits
  | take _ hv htoken hp hempty _ => exact h.taken hv htoken hp hempty
  | stray _ hv _ _ => exact h.created hv
  | delete _ hid _ hchildren hby hkind => exact h.deleted hid hchildren hby hkind
  | move _ he _ hparent => exact h.moved he hparent
  | takeOut _ _ hp => exact h.placed (h.parent _ _ hp).1
  | field _ _ _ => exact h.opened
  | again ho => exact h.enrolled_again ho
  | join _ _ => exact h.seated (objects_free L g) (Nat.succ_ne_zero _)
  | back hp _ => exact h.sameLinks (sameLinks_returned (h.players _ _ hp).2 _ _ _)
  | announce _ => exact h.say _
  | tweak opened count =>
    exact h.sameLinks (sameLinks_mapEntity g _
      (f := fun v => { v with opened := opened, count := count })
      (fun _ => rfl) (fun _ => rfl) (fun _ => rfl) (fun _ => rfl) (fun _ => rfl) (fun _ => rfl))
  | load => exact h.sameLinks ⟨⟨fun _ => rfl, fun _ => rfl, rfl, rfl, rfl, rfl, fun _ => rfl,
      fun _ => rfl, fun _ => rfl, fun _ => rfl, fun _ => rfl⟩, fun _ => rfl, fun _ => rfl,
      fun _ => rfl, fun _ => rfl⟩

theorem Sound.chain (h : Sound P.fits g) (hc : Chain P L g g') : Sound P.fits g' := by
  induction hc with
  | refl => exact h
  | tail _ hc ih => exact ih.change hc

/-! ## What changes never do -/

/-- **What there was is there**: a later game has the entities, of the same
kinds, and the players, under the same names. -/
structure Later (g g' : Game α) : Prop where
  /-- At least as many entities. -/
  nextEntity : g.nextEntity ≤ g'.nextEntity
  /-- At least as many players. -/
  nextPlayer : g.nextPlayer ≤ g'.nextPlayer
  /-- The entities are of the kinds they were of. -/
  kind : ∀ e, e < g.nextEntity → (g'.entities e).kind = (g.entities e).kind
  /-- The players are there. -/
  players : ∀ n p, g.players.get n = some p → g'.players.get n = some p

theorem Later.refl (g : Game α) : Later g g :=
  ⟨le_rfl, le_rfl, fun _ _ => rfl, fun _ _ h => h⟩

theorem Later.trans {g₁ g₂ g₃ : Game α} (h : Later g₁ g₂) (h' : Later g₂ g₃) : Later g₁ g₃ :=
  ⟨h.nextEntity.trans h'.nextEntity, h.nextPlayer.trans h'.nextPlayer,
    fun e he => (h'.kind e (he.trans_le h.nextEntity)).trans (h.kind e he),
    fun n p hp => h'.players n p (h.players n p hp)⟩

theorem SameObjects.later (h : SameObjects g g') : Later g g' :=
  ⟨h.nextEntity.ge, h.nextPlayer.ge, fun e _ => h.kind e, fun n p hp => by
    rw [h.players]
    exact hp⟩

theorem later_created (v : Entity) (g : Game α) : Later g (g.created L v) :=
  ⟨Nat.le_succ _, le_rfl, fun e he => by rw [created_of_ne L v he.ne], fun _ _ hp => hp⟩

theorem later_seated {name : Bytes} (hnew : g.players.get name = none) (r b c : Value α) (id : ℕ) :
    Later g (g.seated name r b c id) :=
  ⟨le_rfl, Nat.le_succ _, fun _ _ => rfl, fun n p hp => by
    show (g.players.set name _).get n = some p
    rw [Dict.get_set_of_ne _ _ (fun hn => ?_), hp]
    rw [hn, hnew] at hp
    cases hp⟩

theorem later_deleted (e id : ℕ) (g : Game α) : Later g (g.deleted e id) :=
  ⟨le_rfl, le_rfl, fun _ _ => rfl, fun _ _ hp => hp⟩

theorem later_opened (name : Bytes) (g : Game α) : Later g (g.opened L name) :=
  (later_created _ g).trans ⟨le_rfl, le_rfl, fun _ _ => rfl, fun _ _ hp => hp⟩

/-- **A change makes a later game.** -/
theorem Sound.later (h : Sound P.fits g) (hc : Change P L g g') : Later g g' := by
  cases hc with
  | say _ => exact (SameObjects.say _ _).later
  | pickup _ _ _ _ _ _ => exact (sameObjects_pickedUp _ _ g).later
  | drop _ _ _ => exact (sameObjects_dropped _ _ _ _ _ _).later
  | putBack _ _ _ _ _ _ => exact (sameObjects_dropped _ _ _ _ _ g).later.trans (later_deleted _ _ _)
  | letGo _ _ => exact ((SameObjects.withHeldBy g _ _).trans (.withHeld _ _ _)).later
  | spawn _ _ _ _ => exact (later_created _ g).trans (SameObjects.moved _ _ _ _ _).later
  | take _ _ _ _ _ _ =>
    unfold Game.taken
    exact (later_created _ g).trans (sameObjects_pickedUp _ _ _).later
  | stray _ _ _ _ => exact later_created _ g
  | delete _ _ _ _ _ _ => exact later_deleted _ _ g
  | move _ _ _ _ => exact (SameObjects.moved _ _ _ _ _).later
  | takeOut _ _ _ => exact ⟨le_rfl, le_rfl, fun _ _ => rfl, fun _ _ hp => hp⟩
  | field _ _ _ => exact later_opened _ g
  | again ho =>
    exact (sameLinks_enrolled (h.id_of _ _ ho) ho ((h.inverse _ _).mp ho)).toSameObjects.later
  | join hnew _ => exact later_seated hnew _ _ _ _
  | back hp _ => exact (sameLinks_returned (h.players _ _ hp).2 _ _ _).toSameObjects.later
  | announce _ => exact (SameObjects.say _ _).later
  | tweak opened count =>
    exact (SameObjects.mapEntity g _ (f := fun v => { v with opened := opened, count := count })
      (fun _ => rfl) (fun _ => rfl) (fun _ => rfl)).later
  | load => exact ⟨le_rfl, le_rfl, fun _ _ => rfl, fun _ _ hp => hp⟩

/-- **A chain makes a later game.** -/
theorem Sound.later_of_chain (h : Sound P.fits g) (hc : Chain P L g g') : Later g g' := by
  induction hc with
  | refl => exact .refl g
  | tail hc hlast ih => exact ih.trans ((h.chain hc).later hlast)

end Sound

end Server

end Felt
