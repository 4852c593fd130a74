import Felt.Server.Action

/-!
# What the game's methods leave

The methods of the game are written as the source has them, one assignment and
one broadcast after the other. Here are the states they leave, as functions of
the state they start in. No assignment can fail, so most methods return, and
the lemmas named `_apply` say so.

A `moveto` leaves the parent, goes to its place, and joins the new parent.
`Entity.moved` is what this makes of each entity.

The functions on games are the vocabulary of everything that follows: `moved`,
`created`, `enrolled`, `deleted`, `dropped`, `pickedUp`. Each has a lemma for what
it makes of an entity, of a player, and of the tables, and invariants are proved
from those, so that most proofs need not unfold the methods.
-/

namespace Felt

namespace Server

variable {α : Type}

/-! ## Changing a field -/

/-- What a change at `a` makes of `e`. -/
def changeAt (a : ℕ) (f : Entity → Entity) (e : ℕ) (v : Entity) : Entity :=
  if e = a then f v else v

/-- A field that is not changed. -/
theorem changeAt_field {β : Type} (field : Entity → β) {f : Entity → Entity}
    (h : ∀ v, field (f v) = field v) (a e : ℕ) (v : Entity) :
    field (changeAt a f e v) = field v := by
  unfold changeAt
  split_ifs
  · exact h v
  · rfl

/-- **Changing an entity changes nothing else.** -/
theorem mapEntity_eq (g : Game α) (a : ℕ) (f : Entity → Entity) :
    g.mapEntity a f = { g with entities := fun e => changeAt a f e (g.entities e) } := by
  have h : Function.update g.entities a (f (g.entities a))
      = fun e => changeAt a f e (g.entities e) := by
    funext e
    unfold changeAt
    rw [Function.update_apply]
    split_ifs with he
    · rw [he]
    · rfl
  show ({ g with entities := _ } : Game α) = _
  rw [h]

theorem mapEntity_self (g : Game α) (a : ℕ) (f : Entity → Entity) :
    (g.mapEntity a f).entities a = f (g.entities a) := Function.update_self _ _ _

/-- **`server.send`**, as a function. -/
def Game.say (call : (Obj → Packed) → Call α) (g : Game α) : Game α :=
  { g with sent := g.sent ++ [pack g g.known (call (packed g.known))] }

@[simp] theorem send_apply (call : (Obj → Packed) → Call α) (g : Game α) :
    send call g = .ok () (g.say call) := rfl

/-- The game after `self:set("held", item)`. -/
def Game.withHeld (p : ℕ) (item : Option ℕ) (g : Game α) : Game α :=
  (g.mapPlayer p (fun v => { v with held := item })).say
    (fun packed => .set (packed (.player p)) .held (item.map (fun e => packed (.entity e))))

/-- The game after `self:set("held_by", who)`. -/
def Game.withHeldBy (e : ℕ) (who : Option ℕ) (g : Game α) : Game α :=
  (g.mapEntity e (fun v => { v with heldBy := who })).say
    (fun packed => .set (packed (.entity e)) .heldBy (who.map (fun p => packed (.player p))))

@[simp] theorem setHeld_apply (p : ℕ) (item : Option ℕ) (g : Game α) :
    setHeld p item g = .ok () (g.withHeld p item) := rfl

@[simp] theorem setHeldBy_apply (e : ℕ) (who : Option ℕ) (g : Game α) :
    setHeldBy e who g = .ok () (g.withHeldBy e who) := rfl

section Fields

variable (g : Game α)

@[simp] theorem say_entities (call : (Obj → Packed) → Call α) :
    (g.say call).entities = g.entities := rfl

@[simp] theorem say_people (call : (Obj → Packed) → Call α) :
    (g.say call).people = g.people := rfl

@[simp] theorem withHeld_entities (p : ℕ) (item : Option ℕ) :
    (g.withHeld p item).entities = g.entities := rfl

theorem withHeld_people (p : ℕ) (item : Option ℕ) (q : ℕ) : (g.withHeld p item).people q
    = if q = p then { g.people q with held := item } else g.people q := by
  show Function.update g.people p _ q = _
  rw [Function.update_apply]
  split_ifs with h
  · rw [h]
  · rfl

theorem withHeldBy_entities (e : ℕ) (who : Option ℕ) (e' : ℕ) :
    (g.withHeldBy e who).entities e' = changeAt e (fun v => { v with heldBy := who }) e'
      (g.entities e') := by
  unfold Game.withHeldBy
  rw [say_entities, mapEntity_eq]

@[simp] theorem withHeldBy_people (e : ℕ) (who : Option ℕ) :
    (g.withHeldBy e who).people = g.people := rfl

end Fields

/-! ## Moving -/

/-- The children of `p` when `self`, a child of `was`, becomes one of
`parent`. -/
def movedChildren (self : ℕ) (was parent : Option ℕ) (p : ℕ) (children : List ℕ) : List ℕ :=
  if was = parent then children
  else if was = some p then children.erase self
  else if parent = some p then children ++ [self]
  else children

/-- **What becomes of an entity** when `self`, a child of `was`, is moved to
`parent`. -/
def Entity.moved (self : ℕ) (was parent : Option ℕ) (x y : Option ℚ) (e : ℕ) (v : Entity) :
    Entity :=
  { v with
    parent := if e = self then parent else v.parent
    children := movedChildren self was parent e v.children
    x := if e = self then x.getD v.x else v.x
    y := if e = self then y.getD v.y else v.y }

/-- The game after the entities have moved. -/
def Game.placed (self : ℕ) (parent : Option ℕ) (x y : Option ℚ) (g : Game α) : Game α :=
  { g with entities := fun e =>
      (g.entities e).moved self (g.entities self).parent parent x y e }

/-- The message of a `moveto`. -/
def movetoCall (self : ℕ) (parent : Option ℕ) (x y : Option ℚ) (packed : Obj → Packed) : Call α :=
  .moveto (packed (.entity self)) (parent.map (fun p => packed (.entity p))) x y

/-- **The game after a `moveto`.** -/
def Game.moved (self : ℕ) (parent : Option ℕ) (x y : Option ℚ) (g : Game α) : Game α :=
  (g.placed self parent x y).say (movetoCall self parent x y)

/-- The game when `self` has left a parent that is not `parent`. -/
def Game.left (self : ℕ) (parent : Option ℕ) (g : Game α) : Game α :=
  match (g.entities self).parent with
  | none => g
  | some p =>
    if some p = parent then g
    else (g.mapEntity self (fun v => { v with parent := none })).mapEntity p
      (fun v => { v with children := v.children.erase self })

/-- The game when `self` has joined a parent that is a new one. -/
def Game.joined (self : ℕ) (parent : Option ℕ) (g : Game α) : Game α :=
  match parent with
  | none => g
  | some p =>
    if (g.entities self).parent = some p then g
    else (g.mapEntity self (fun v => { v with parent := some p })).mapEntity p
      (fun v => { v with children := v.children ++ [self] })

theorem leaveParent_apply (self : ℕ) (parent : Option ℕ) (g : Game α) :
    leaveParent self parent g = .ok () (g.left self parent) := by
  unfold leaveParent Game.left
  rw [Run.get_bind]
  rcases (g.entities self).parent with _ | p
  · rfl
  · by_cases hp : some p = parent
    · simp only [if_pos hp]
      rfl
    · simp only [if_neg hp]
      rfl

theorem joinParent_apply (self : ℕ) (parent : Option ℕ) (g : Game α) :
    joinParent self parent g = .ok () (g.joined self parent) := by
  unfold joinParent Game.joined
  rw [Run.get_bind]
  rcases parent with _ | p
  · rfl
  · by_cases hp : (g.entities self).parent = some p
    · simp only [if_pos hp]
      rfl
    · simp only [if_neg hp]
      rfl

/-- **Leaving, going and joining** are one move. -/
theorem placed_eq (self : ℕ) (parent : Option ℕ) (x y : Option ℚ) (g : Game α) :
    ((((g.left self parent).mapEntity self
        (fun v => { v with x := x.getD v.x, y := y.getD v.y })).joined self parent).mapEntity self
        (fun v => { v with parent := parent })) = g.placed self parent x y := by
  -- entity by entity, in each of the ways the two parents may be related
  have hext : ∀ f : ℕ → Entity → Entity,
      (∀ e v, f e v = v.moved self (g.entities self).parent parent x y e) →
      ({ g with entities := fun e => f e (g.entities e) } : Game α)
        = g.placed self parent x y := fun f h => by
    unfold Game.placed
    simp only [h]
  unfold Game.left Game.joined
  rcases hwas : (g.entities self).parent with _ | p
  · rcases parent with _ | q
    · simp only [mapEntity_eq]
      refine hext (fun e v => changeAt _ _ e (changeAt _ _ e v)) (fun e v => ?_)
      rw [hwas]
      unfold changeAt Entity.moved movedChildren
      rcases eq_or_ne e self with he | he
      · simp [he]
      · simp [he]
    · have hjoin : ¬(changeAt self (fun v => { v with x := x.getD v.x, y := y.getD v.y }) self
          (g.entities self)).parent = some q := by
        unfold changeAt
        rw [if_pos rfl, hwas]
        nofun
      simp only [mapEntity_eq, if_neg hjoin]
      refine hext (fun e v => changeAt _ _ e (changeAt _ _ e (changeAt _ _ e (changeAt _ _ e v))))
        (fun e v => ?_)
      rw [hwas]
      unfold changeAt Entity.moved movedChildren
      rcases eq_or_ne e self with rfl | he <;> rcases eq_or_ne e q with rfl | hq
      · simp
      · simp [hq, hq.symm]
      · simp [he]
      · simp [he, hq, hq.symm]
  · by_cases hp : some p = parent
    · obtain rfl := hp
      have hjoin : (changeAt self (fun v => { v with x := x.getD v.x, y := y.getD v.y }) self
          (g.entities self)).parent = some p := by
        unfold changeAt
        rw [if_pos rfl, hwas]
      simp only [mapEntity_eq, if_true, if_pos hjoin]
      refine hext (fun e v => changeAt _ _ e (changeAt _ _ e v)) (fun e v => ?_)
      rw [hwas]
      unfold changeAt Entity.moved movedChildren
      rcases eq_or_ne e self with rfl | he
      · simp
      · simp [he]
    · rcases parent with _ | q
      · simp only [mapEntity_eq, if_neg hp]
        refine hext (fun e v => changeAt _ _ e (changeAt _ _ e (changeAt _ _ e (changeAt _ _ e v))))
          (fun e v => ?_)
        rw [hwas]
        unfold changeAt Entity.moved movedChildren
        rcases eq_or_ne e self with rfl | he <;> rcases eq_or_ne e p with rfl | hep
        · simp
        · simp [hep, hep.symm]
        · simp [he]
        · simp [he, hep, hep.symm]
      · have hjoin : ¬(changeAt self (fun v => { v with x := x.getD v.x, y := y.getD v.y }) self
            (changeAt p (fun v => { v with children := v.children.erase self }) self
              (changeAt self (fun v => { v with parent := none }) self
                (g.entities self)))).parent = some q := by
          unfold changeAt
          simp only [if_true]
          split_ifs <;> nofun
        simp only [mapEntity_eq, if_neg hp, if_neg hjoin]
        refine hext (fun e v => changeAt _ _ e (changeAt _ _ e (changeAt _ _ e (changeAt _ _ e
          (changeAt _ _ e (changeAt _ _ e v)))))) (fun e v => ?_)
        rw [hwas]
        unfold changeAt Entity.moved movedChildren
        have hpq : p ≠ q := fun h => hp (congrArg some h)
        rcases eq_or_ne e self with rfl | he <;> rcases eq_or_ne e p with rfl | hep <;>
          rcases eq_or_ne e q with rfl | hq
        · exact absurd rfl hpq
        · simp [hpq]
        · simp [hpq, hep]
        · simp [hpq, hep, hep.symm, hq, hq.symm]
        · exact absurd rfl hpq
        · simp [he, hpq]
        · simp [he, hpq, hep]
        · simp [he, hpq, hep, hep.symm, hq, hq.symm]

/-- **A `moveto` returns**, and this is what it leaves. -/
theorem moveto_apply (self : ℕ) (parent : Option ℕ) (x y : Option ℚ) (g : Game α) :
    moveto self parent x y g = .ok () (g.moved self parent x y) := by
  unfold moveto
  rw [Run.bind_of_ok (leaveParent_apply self parent g), Run.modify_bind,
    Run.bind_of_ok (joinParent_apply self parent _), Run.modify_bind, placed_eq]
  rfl

section Moved

variable {self : ℕ} {parent : Option ℕ} {x y : Option ℚ} {g : Game α}

/-- **What a `moveto` makes of each entity.** -/
theorem moved_entities (e : ℕ) : (g.moved self parent x y).entities e
    = (g.entities e).moved self (g.entities self).parent parent x y e := rfl

theorem moved_parent (e : ℕ) : ((g.moved self parent x y).entities e).parent
    = if e = self then parent else (g.entities e).parent := rfl

theorem moved_children (e : ℕ) : ((g.moved self parent x y).entities e).children
    = movedChildren self (g.entities self).parent parent e (g.entities e).children := rfl

@[simp] theorem moved_people : (g.moved self parent x y).people = g.people := rfl

end Moved

/-! ## Ids -/

/-- The game when `o` has been given `id` and is in the tables. -/
def Game.enrolled (o : Obj) (id : ℕ) (g : Game α) : Game α :=
  let g' := (g.setId o id).say (fun packed => .addObject (packed .game) (packed o))
  { g' with objects := g'.objects.set id o, rObjects := g'.rObjects.set o id }

/-- The game when `o` has been taken from the tables. -/
def Game.struck (o : Obj) (id : ℕ) (g : Game α) : Game α :=
  let g' := g.say (fun packed => .deleteObject (packed .game) (packed o))
  { g' with objects := g'.objects.erase id, rObjects := g'.rObjects.erase o }

/-- **An object that has no id gets one.** -/
theorem addObject_new (L : Dict.Length Obj) {o : Obj} {g : Game α} (h : g.idOf o = none) :
    addObject L o g = .ok () (g.enrolled o (L.border g.objects + 1)) := by
  have hfree : assertFree o g = .ok () g := by
    rw [assertFree, Run.get_bind, h]
    rfl
  unfold addObject
  rw [Run.bind_of_ok hfree, Run.get_bind, h]
  rfl

/-- **An object that is registered keeps its id.** -/
theorem addObject_again (L : Dict.Length Obj) {o : Obj} {id : ℕ} {g : Game α}
    (h : g.idOf o = some id) (ho : g.objects.get id = some o) :
    addObject L o g = .ok () (g.enrolled o id) := by
  have hfree : assertFree o g = .ok () g := by
    rw [assertFree, Run.get_bind, h]
    show (if g.objects.get id = some o then _ else _ : Action α Unit) g = _
    rw [if_pos ho]
    rfl
  unfold addObject
  rw [Run.bind_of_ok hfree, Run.get_bind, h]
  rfl

/-- An object whose id is another one's is refused. -/
theorem addObject_collision (L : Dict.Length Obj) {o : Obj} {id : ℕ} {g : Game α}
    (h : g.idOf o = some id) (ho : g.objects.get id ≠ some o) :
    addObject L o g = .error .collision g := by
  have hfree : assertFree o g = .error .collision g := by
    rw [assertFree, Run.get_bind, h]
    show (if g.objects.get id = some o then _ else _ : Action α Unit) g = _
    rw [if_neg ho]
    rfl
  unfold addObject
  rw [Run.bind_of_error hfree]

/-- `addObject` registers an object, or refuses and changes nothing. -/
theorem addObject_cases (L : Dict.Length Obj) (o : Obj) (g : Game α) :
    (∃ id, addObject L o g = .ok () (g.enrolled o id))
      ∨ addObject L o g = .error .collision g := by
  rcases h : g.idOf o with _ | id
  · exact Or.inl ⟨_, addObject_new L h⟩
  · by_cases ho : g.objects.get id = some o
    · exact Or.inl ⟨id, addObject_again L h ho⟩
    · exact Or.inr (addObject_collision L h ho)

/-- **An object with an id is taken from the tables.** -/
theorem deleteObject_apply {o : Obj} {id : ℕ} {g : Game α} (h : g.idOf o = some id) :
    deleteObject o g = .ok () (g.struck o id) := by
  show (Run.assertSome (g.idOf o) _ >>= _) _ = _
  rw [h, Run.bind_of_ok (Run.assertSome_some _ _ _)]
  rfl

/-- The game when an entity has been made that is in no table. -/
def Game.alloc (v : Entity) (g : Game α) : Game α :=
  { g with
    nextEntity := g.nextEntity + 1
    entities := Function.update g.entities g.nextEntity v }

/-- **A new entity without children is registered.** -/
theorem newEntity_apply (L : Dict.Length Obj) {v : Entity} (h : v.id = none) (g : Game α) :
    newEntity L v [] g = .ok g.nextEntity
      ((g.alloc v).enrolled (.entity g.nextEntity) (L.border g.objects + 1)) := by
  have hid : (g.alloc v).idOf (.entity g.nextEntity) = none := by
    show (Function.update g.entities g.nextEntity v g.nextEntity).id = none
    rw [Function.update_self, h]
  unfold newEntity
  rw [Run.get_bind, Run.modify_bind]
  show (addObject L (.entity g.nextEntity) >>= _) (g.alloc v) = _
  rw [Run.bind_of_ok (addObject_new L hid)]
  rfl

/-! ## Picking up and dropping -/

/-- The game when a player has taken `item` into their hand. -/
def Game.grabbed (p item : ℕ) (g : Game α) : Game α :=
  (g.withHeld p (some item)).withHeldBy item (some p)

/-- The game when a player has emptied their hand of `item`. -/
def Game.released (p item : ℕ) (g : Game α) : Game α :=
  (g.withHeld p none).withHeldBy item none

theorem grabbed_entities (p item : ℕ) (g : Game α) (e : ℕ) : (g.grabbed p item).entities e
    = changeAt item (fun v => { v with heldBy := some p }) e (g.entities e) :=
  withHeldBy_entities _ _ _ _

theorem grabbed_people (p item : ℕ) (g : Game α) (q : ℕ) : (g.grabbed p item).people q
    = if q = p then { g.people q with held := some item } else g.people q :=
  withHeld_people _ _ _ _

theorem released_entities (p item : ℕ) (g : Game α) (e : ℕ) : (g.released p item).entities e
    = changeAt item (fun v => { v with heldBy := none }) e (g.entities e) :=
  withHeldBy_entities _ _ _ _

theorem released_people (p item : ℕ) (g : Game α) (q : ℕ) : (g.released p item).people q
    = if q = p then { g.people q with held := none } else g.people q :=
  withHeld_people _ _ _ _

/-- The text of a pickup. -/
def Game.pickupText (g : Game α) (p item : ℕ) : Bytes :=
  formatString (g.playerName p) ++ bytes " picks up " ++ formatString (g.entityName item)
    ++ bytes "."

/-- The text of a drop. -/
def Game.dropText (g : Game α) (p item onto : ℕ) : Bytes :=
  formatString (g.playerName p) ++ bytes " drops "
    ++ formatString (g.entityName item) ++ bytes " on " ++ formatString (g.entityName onto)

/-- **The game after a player has dropped what they hold.** -/
def Game.dropped (p item onto : ℕ) (x y : Option ℚ) (g : Game α) : Game α :=
  let g' := (g.released p item).moved item (some onto) x y
  g'.say (fun _ => .message (g'.dropText p item onto))

/-- **The game after a player has picked up `item`.** -/
def Game.pickedUp (p item : ℕ) (g : Game α) : Game α :=
  let g' := g.grabbed p item
  g'.say (fun _ => .message (g'.pickupText p item))

theorem Player.pickup_apply (p item : ℕ) (g : Game α) :
    Player.pickup p item g = .ok () (g.pickedUp p item) := rfl

/-- A token is picked up by somebody. -/
theorem Token.pickup_nobody {self : ℕ} {g : Game α} (h : (g.entities self).heldBy = none) :
    Token.pickup self none g = .error (.refused "index nil") g := by
  rw [Token.pickup, Run.get_bind, h]
  rfl

/-- **Picking up a token**: nothing, when somebody holds it or the hand is not
empty. -/
theorem Token.pickup_apply (self p : ℕ) (g : Game α) :
    Token.pickup self (some p) g = .ok () (match (g.entities self).heldBy, (g.people p).held with
      | none, none => g.pickedUp p self
      | _, _ => g) := by
  unfold Token.pickup
  rw [Run.get_bind]
  rcases (g.entities self).heldBy with _ | q
  · simp only [Run.assertSome_bind]
    rcases (g.people p).held with _ | item
    · rfl
    · rfl
  · rfl

section Drop

variable {g : Game α}

/-- **A drop out of a hand that holds something returns.** -/
theorem Player.drop_apply {p item : ℕ} (h : (g.people p).held = some item) (onto : ℕ)
    (x y : Option ℚ) : Player.drop p onto x y g = .ok () (g.dropped p item onto x y) := by
  unfold Player.drop
  rw [Run.get_bind, h, Run.bind_of_ok (Run.assertSome_some _ _ _)]
  show (moveto item (some onto) x y >>= _) (g.released p item) = _
  rw [Run.bind_of_ok (moveto_apply _ _ _ _ _)]
  rfl

/-- Out of an empty hand nothing is dropped. -/
theorem Board.drop_empty {p : ℕ} (h : (g.people p).held = none) (self : ℕ) (x y : Option ℚ) :
    Board.drop self (some p) x y g = .ok () g := by
  rw [Board.drop, Run.get_bind, Run.assertSome_bind, h]
  rfl

/-- A drop without a place raises. -/
theorem Board.drop_nowhere {p item self : ℕ} (h : (g.people p).held = some item)
    (hne : item ≠ self) {x y : Option ℚ} (hplace : x = none ∨ y = none) :
    Board.drop self (some p) x y g = .error (.refused "arithmetic on nil") g := by
  rw [Board.drop, Run.get_bind, Run.assertSome_bind, h]
  simp only [if_neg hne]
  rcases hplace with rfl | rfl
  · rfl
  · cases x with
    | none => rfl
    | some x => rfl

/-- **What `Board.drop` does**: nothing, when the hand is empty or holds the
board itself, and else a drop onto the board. -/
theorem Board.drop_apply (self p : ℕ) (x y : ℚ) (g : Game α) :
    Board.drop self (some p) (some x) (some y) g = .ok () (match (g.people p).held with
      | none => g
      | some item =>
        if item = self then g
        else
          let (x, y) := (g.entities self).kind.place (g.entities item) x y
          g.dropped p item self (some x) (some y)) := by
  unfold Board.drop
  rw [Run.get_bind, Run.bind_of_ok (Run.assertSome_some _ _ _)]
  rcases hheld : (g.people p).held with _ | item
  · rfl
  · by_cases hself : item = self
    · simp only [if_pos hself]
      rfl
    · simp only [if_neg hself]
      rw [Run.bind_of_ok (Run.assertSome_some _ _ _), Run.bind_of_ok (Run.assertSome_some _ _ _)]
      exact Player.drop_apply hheld _ _ _

end Drop

end Server

end Felt
