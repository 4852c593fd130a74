import Felt.Server.Hands
import Felt.Server.Tree

/-!
# A sound game

What holds of the server's game between two assignments that belong together:
the two tables of ids are inverse to each other, whatever is held, is a parent
or a child, or stands in the tables of fields and players has an id, the two
sides of the tree agree, and so do hands.

Which kinds of entities stand on which is a parameter. The shipped methods
only ever put a token on a board or a field, and nothing on a pile that stays
there; a script may move any entity anywhere.

Soundness is a matter of the game alone, and the lemmas are about functions on
games, one for each in `Felt.Server.Effect`. Most of these change one of the
relations and leave the others, so there are two lemmas that carry soundness over
when the objects are the same (`Sound.sameObjects`) or the links are as well
(`Sound.sameLinks`), and each other lemma says only what is different.
-/

namespace Felt

namespace Server

variable {α : Type}

/-- **`o` has an id** – it is in the table of objects. -/
def Game.Listed (g : Game α) (o : Obj) : Prop := ∃ id, g.objects.get id = some o

/-- **The game is sound.** `fits a b` says that entities of the kind `a` may
stand on those of the kind `b`. -/
structure Sound (fits : Kind → Kind → Prop) (g : Game α) : Prop where
  /-- The tables of ids are inverse to each other. -/
  inverse : Dict.Inverse g.objects g.rObjects
  /-- An object in them knows its id. -/
  id_of : ∀ id o, g.objects.get id = some o → g.idOf o = some id
  /-- The id `0` is the game's. -/
  pos : g.objects.get 0 = none
  /-- An entity that has an id was made. -/
  entity : ∀ e, g.Listed (.entity e) → e < g.nextEntity
  /-- The players that have an id are those that were made. -/
  player_iff : ∀ p, g.Listed (.player p) ↔ p < g.nextPlayer
  /-- The two sides of the tree agree. -/
  tree : Consistent g
  /-- What has a parent has an id, and so has the parent. -/
  parent : ∀ e p, (g.entities e).parent = some p →
    g.Listed (.entity e) ∧ g.Listed (.entity p) ∧ fits (g.entities e).kind (g.entities p).kind
  /-- Hands are consistent. -/
  hands : Hands g
  /-- What is held is a token that has an id. -/
  held : ∀ p e, (g.people p).held = some e →
    g.Listed (.entity e) ∧ (g.entities e).kind.isToken = true
  /-- What piles are of is stones. -/
  stock : ∀ e k n, (g.entities e).item = some (k, n) → k = .goPiece
  /-- The fields are fields. -/
  fields : ∀ n f, g.fields.get n = some f → g.Listed (.entity f) ∧ (g.entities f).kind = .field
  /-- The players have their names. -/
  players : ∀ n p, g.players.get n = some p → p < g.nextPlayer ∧ (g.people p).name = n

section Sound

variable {fits : Kind → Kind → Prop} {g g' : Game α}

/-- The tables know an object exactly when it has an id. -/
theorem Sound.listed_iff (h : Sound fits g) {o : Obj} :
    g.Listed o ↔ ∃ id, g.rObjects.get o = some id :=
  exists_congr (fun id => h.inverse id o)

/-- The game itself is not in the tables. -/
theorem Sound.not_listed_game (h : Sound fits g) : ¬g.Listed .game := by
  rintro ⟨id, hid⟩
  obtain rfl : 0 = id := Option.some.inj (h.id_of id .game hid)
  rw [h.pos] at hid
  cases hid

/-- What an object is written as that has an id. -/
theorem Sound.known (h : Sound fits g) {o : Obj} {id : ℕ} (ho : g.objects.get id = some o) :
    g.known o = some id := by
  cases o with
  | game => exact absurd ⟨id, ho⟩ h.not_listed_game
  | entity e => exact (h.inverse id _).mp ho
  | player p => exact (h.inverse id _).mp ho

theorem Sound.id_unique (h : Sound fits g) {o : Obj} {id id' : ℕ}
    (ho : g.objects.get id = some o) (ho' : g.objects.get id' = some o) : id = id' :=
  Option.some.inj ((h.id_of id o ho).symm.trans (h.id_of id' o ho'))

/-- Entities that were not made yet are in no relation to others. -/
theorem Sound.fresh (h : Sound fits g) {e : ℕ} (he : g.nextEntity ≤ e) :
    ¬g.Listed (.entity e) ∧ (g.entities e).parent = none ∧ (g.entities e).children = []
      ∧ (g.entities e).heldBy = none ∧ ∀ p, e ∉ (g.entities p).children := by
  have hnot : ¬g.Listed (.entity e) := fun hl => absurd (h.entity e hl) (by omega)
  have hroot : ∀ p, (g.entities e).parent ≠ some p := fun p hp => hnot (h.parent e p hp).1
  refine ⟨hnot, Option.eq_none_iff_forall_ne_some.mpr hroot,
    List.eq_nil_iff_forall_not_mem.mpr (fun c hc => ?_), h.hands.heldBy_of_le he, fun p hp => ?_⟩
  · exact hnot (h.parent c e ((h.tree.child_iff e c).mp hc)).2.1
  · exact hroot p ((h.tree.child_iff p e).mp hp)

/-! ## What the methods leave alone -/

/-- **Two games with the same objects**, under the same ids and names. -/
structure SameObjects (g g' : Game α) : Prop where
  /-- `objects`. -/
  objects : ∀ id, g'.objects.get id = g.objects.get id
  /-- `r_objects`. -/
  rObjects : ∀ o, g'.rObjects.get o = g.rObjects.get o
  /-- `fields`. -/
  fields : g'.fields = g.fields
  /-- `players`. -/
  players : g'.players = g.players
  /-- As many entities. -/
  nextEntity : g'.nextEntity = g.nextEntity
  /-- As many players. -/
  nextPlayer : g'.nextPlayer = g.nextPlayer
  /-- The classes. -/
  kind : ∀ e, (g'.entities e).kind = (g.entities e).kind
  /-- What piles are of. -/
  item : ∀ e, (g'.entities e).item = (g.entities e).item
  /-- The ids of entities. -/
  entityId : ∀ e, (g'.entities e).id = (g.entities e).id
  /-- The ids of players. -/
  playerId : ∀ p, (g'.people p).id = (g.people p).id
  /-- Their names. -/
  name : ∀ p, (g'.people p).name = (g.people p).name

namespace SameObjects

theorem refl (g : Game α) : SameObjects g g :=
  ⟨fun _ => rfl, fun _ => rfl, rfl, rfl, rfl, rfl, fun _ => rfl, fun _ => rfl, fun _ => rfl,
    fun _ => rfl, fun _ => rfl⟩

theorem trans {g₁ g₂ g₃ : Game α} (h : SameObjects g₁ g₂) (h' : SameObjects g₂ g₃) :
    SameObjects g₁ g₃ where
  objects id := (h'.objects id).trans (h.objects id)
  rObjects o := (h'.rObjects o).trans (h.rObjects o)
  fields := h'.fields.trans h.fields
  players := h'.players.trans h.players
  nextEntity := h'.nextEntity.trans h.nextEntity
  nextPlayer := h'.nextPlayer.trans h.nextPlayer
  kind e := (h'.kind e).trans (h.kind e)
  item e := (h'.item e).trans (h.item e)
  entityId e := (h'.entityId e).trans (h.entityId e)
  playerId p := (h'.playerId p).trans (h.playerId p)
  name p := (h'.name p).trans (h.name p)

theorem listed (h : SameObjects g g') (o : Obj) : g'.Listed o ↔ g.Listed o :=
  exists_congr (fun id => by rw [h.objects])

theorem idOf (h : SameObjects g g') (o : Obj) : g'.idOf o = g.idOf o := by
  cases o with
  | game => rfl
  | entity e => exact h.entityId e
  | player p => exact h.playerId p

theorem known (h : SameObjects g g') : g'.known = g.known := by
  funext o
  cases o with
  | game => rfl
  | entity e => exact h.rObjects _
  | player p => exact h.rObjects _

/-- Broadcasting. -/
theorem say (g : Game α) (call : (Obj → Packed) → Call α) : SameObjects g (g.say call) :=
  ⟨fun _ => rfl, fun _ => rfl, rfl, rfl, rfl, rfl, fun _ => rfl, fun _ => rfl, fun _ => rfl,
    fun _ => rfl, fun _ => rfl⟩

/-- Changing a field of an entity. -/
theorem mapEntity (g : Game α) (e : ℕ) {f : Entity → Entity} (hkind : ∀ v, (f v).kind = v.kind)
    (hitem : ∀ v, (f v).item = v.item) (hid : ∀ v, (f v).id = v.id) :
    SameObjects g (g.mapEntity e f) := by
  rw [mapEntity_eq]
  exact ⟨fun _ => rfl, fun _ => rfl, rfl, rfl, rfl, rfl,
    fun _ => changeAt_field Entity.kind hkind _ _ _,
    fun _ => changeAt_field Entity.item hitem _ _ _, fun _ => changeAt_field Entity.id hid _ _ _,
    fun _ => rfl, fun _ => rfl⟩

/-- Changing a field of a player. -/
theorem mapPlayer (g : Game α) (p : ℕ) {f : Player α → Player α}
    (hid : (f (g.people p)).id = (g.people p).id)
    (hname : (f (g.people p)).name = (g.people p).name) : SameObjects g (g.mapPlayer p f) := by
  have h : ∀ q, (Function.update g.people p (f (g.people p)) q).id = (g.people q).id
      ∧ (Function.update g.people p (f (g.people p)) q).name = (g.people q).name := fun q => by
    rcases eq_or_ne q p with rfl | hq
    · rw [Function.update_self]
      exact ⟨hid, hname⟩
    · rw [Function.update_of_ne hq]
      exact ⟨rfl, rfl⟩
  exact ⟨fun _ => rfl, fun _ => rfl, rfl, rfl, rfl, rfl, fun _ => rfl, fun _ => rfl, fun _ => rfl,
    fun q => (h q).1, fun q => (h q).2⟩

theorem withHeld (g : Game α) (p : ℕ) (item : Option ℕ) : SameObjects g (g.withHeld p item) :=
  (mapPlayer g p rfl rfl).trans (say _ _)

theorem withHeldBy (g : Game α) (e : ℕ) (who : Option ℕ) : SameObjects g (g.withHeldBy e who) :=
  (mapEntity g e (f := fun v => { v with heldBy := who }) (fun _ => rfl) (fun _ => rfl)
    (fun _ => rfl)).trans (say _ _)

theorem moved (g : Game α) (self : ℕ) (parent : Option ℕ) (x y : Option ℚ) :
    SameObjects g (g.moved self parent x y) :=
  ⟨fun _ => rfl, fun _ => rfl, rfl, rfl, rfl, rfl, fun _ => rfl, fun _ => rfl, fun _ => rfl,
    fun _ => rfl, fun _ => rfl⟩

end SameObjects

/-- **The same objects, in other relations**: these have to be sound. -/
theorem Sound.sameObjects (hg : Sound fits g) (h : SameObjects g g') (tree : Consistent g')
    (parent : ∀ e p, (g'.entities e).parent = some p → g.Listed (.entity e) ∧ g.Listed (.entity p)
      ∧ fits (g.entities e).kind (g.entities p).kind)
    (hands : Hands g') (held : ∀ p e, (g'.people p).held = some e →
      g.Listed (.entity e) ∧ (g.entities e).kind.isToken = true) : Sound fits g' where
  inverse id o := by
    rw [h.objects, h.rObjects]
    exact hg.inverse id o
  id_of id o ho := by
    rw [h.objects] at ho
    rw [h.idOf]
    exact hg.id_of id o ho
  pos := by
    rw [h.objects]
    exact hg.pos
  entity e he := by
    rw [h.nextEntity]
    exact hg.entity e ((h.listed _).mp he)
  player_iff p := by
    rw [h.listed, h.nextPlayer]
    exact hg.player_iff p
  tree := tree
  parent e p hp := by
    rw [h.listed, h.listed, h.kind, h.kind]
    exact parent e p hp
  hands := hands
  held p e he := by
    rw [h.listed, h.kind]
    exact held p e he
  stock e k n hk := by
    rw [h.item] at hk
    exact hg.stock e k n hk
  fields n f hf := by
    rw [h.fields] at hf
    rw [h.listed, h.kind]
    exact hg.fields n f hf
  players n p hp := by
    rw [h.players] at hp
    rw [h.nextPlayer, h.name]
    exact hg.players n p hp

/-- **Two games with the same links.** They differ in what is broadcast, in
positions, colours and the like. -/
structure SameLinks (g g' : Game α) : Prop extends SameObjects g g' where
  /-- The parents. -/
  parent : ∀ e, (g'.entities e).parent = (g.entities e).parent
  /-- The children. -/
  children : ∀ e, (g'.entities e).children = (g.entities e).children
  /-- By whom entities are held. -/
  heldBy : ∀ e, (g'.entities e).heldBy = (g.entities e).heldBy
  /-- What players hold. -/
  held : ∀ p, (g'.people p).held = (g.people p).held

/-- **Of two games with the same links both are sound, or neither.** -/
theorem Sound.sameLinks (hg : Sound fits g) (h : SameLinks g g') : Sound fits g' := by
  refine hg.sameObjects h.toSameObjects ⟨fun p e => ?_, fun p => ?_⟩ (fun e p hp => ?_)
    (hg.hands.same h.held h.heldBy h.nextPlayer.ge h.nextEntity.ge) (fun p e he => ?_)
  · rw [h.children, h.parent]
    exact hg.tree.child_iff p e
  · rw [h.children]
    exact hg.tree.nodup p
  · rw [h.parent] at hp
    exact hg.parent e p hp
  · rw [h.held] at he
    exact hg.held p e he

theorem sameLinks_say (g : Game α) (call : (Obj → Packed) → Call α) : SameLinks g (g.say call) :=
  ⟨.say g call, fun _ => rfl, fun _ => rfl, fun _ => rfl, fun _ => rfl⟩

theorem Sound.say (h : Sound fits g) (call : (Obj → Packed) → Call α) : Sound fits (g.say call) :=
  h.sameLinks (sameLinks_say g call)

/-- Changing a field that is no link. -/
theorem sameLinks_mapEntity (g : Game α) (e : ℕ) {f : Entity → Entity}
    (hkind : ∀ v, (f v).kind = v.kind) (hitem : ∀ v, (f v).item = v.item)
    (hid : ∀ v, (f v).id = v.id)
    (hparent : ∀ v, (f v).parent = v.parent) (hchildren : ∀ v, (f v).children = v.children)
    (hby : ∀ v, (f v).heldBy = v.heldBy) : SameLinks g (g.mapEntity e f) := by
  refine ⟨.mapEntity g e hkind hitem hid, fun i => ?_, fun i => ?_, fun i => ?_, fun _ => rfl⟩
  · rw [mapEntity_eq]
    exact changeAt_field Entity.parent hparent _ _ _
  · rw [mapEntity_eq]
    exact changeAt_field Entity.children hchildren _ _ _
  · rw [mapEntity_eq]
    exact changeAt_field Entity.heldBy hby _ _ _

/-- A player gets other colours. -/
theorem sameLinks_mapPlayer (g : Game α) (p : ℕ) {f : Player α → Player α}
    (hid : (f (g.people p)).id = (g.people p).id)
    (hname : (f (g.people p)).name = (g.people p).name)
    (hheld : (f (g.people p)).held = (g.people p).held) : SameLinks g (g.mapPlayer p f) := by
  refine ⟨.mapPlayer g p hid hname, fun _ => rfl, fun _ => rfl, fun _ => rfl, fun q => ?_⟩
  show (Function.update g.people p _ q).held = _
  rcases eq_or_ne q p with rfl | hq
  · rw [Function.update_self, hheld]
  · rw [Function.update_of_ne hq]

/-! ## Hands -/

/-- Hands are no matter of the tree. -/
theorem withHeldBy_tree (g : Game α) (e : ℕ) (who : Option ℕ) (i : ℕ) :
    ((g.withHeldBy e who).entities i).parent = (g.entities i).parent
      ∧ ((g.withHeldBy e who).entities i).children = (g.entities i).children := by
  rw [withHeldBy_entities]
  constructor
  · refine changeAt_field Entity.parent ?_ _ _ _
    exact fun _ => rfl
  · refine changeAt_field Entity.children ?_ _ _ _
    exact fun _ => rfl

/-- **Other hands**, in which tokens are that have an id. -/
theorem Sound.handed (hg : Sound fits g) {p e : ℕ} {item who : Option ℕ}
    (hands : Hands ((g.withHeld p item).withHeldBy e who)) (hitem : ∀ i, item = some i →
      g.Listed (.entity i) ∧ (g.entities i).kind.isToken = true) :
    Sound fits ((g.withHeld p item).withHeldBy e who) := by
  refine hg.sameObjects ((SameObjects.withHeld g p item).trans (.withHeldBy _ e who))
    ⟨fun q i => ?_, fun q => ?_⟩ (fun i q hq => ?_) hands (fun q i hi => ?_)
  · rw [(withHeldBy_tree _ e who q).2, (withHeldBy_tree _ e who i).1]
    exact hg.tree.child_iff q i
  · rw [(withHeldBy_tree _ e who q).2]
    exact hg.tree.nodup q
  · rw [(withHeldBy_tree _ e who i).1] at hq
    exact hg.parent i q hq
  · rw [withHeldBy_people, withHeld_people] at hi
    split_ifs at hi
    · exact hitem i hi
    · exact hg.held q i hi

/-- **A token is taken into an empty hand.** -/
theorem Sound.grabbed (hg : Sound fits g) {p e : ℕ} (hp : p < g.nextPlayer)
    (he : g.Listed (.entity e)) (htoken : (g.entities e).kind.isToken = true)
    (hempty : (g.people p).held = none) (hfree : (g.entities e).heldBy = none) :
    Sound fits (g.grabbed p e) := by
  refine hg.handed (hg.hands.grabbed hp (hg.entity e he) hempty hfree) (fun i hi => ?_)
  obtain rfl := Option.some.inj hi
  exact ⟨he, htoken⟩

/-- **A hand is emptied.** -/
theorem Sound.released (hg : Sound fits g) {p e : ℕ} (hheld : (g.people p).held = some e) :
    Sound fits (g.released p e) :=
  hg.handed (hg.hands.released hheld) (fun _ hi => absurd hi nofun)

/-- The game when a player who leaves has emptied their hand of `item`. -/
def Game.letGo (p item : ℕ) (g : Game α) : Game α :=
  (g.withHeldBy item none).withHeld p none

/-- **Two ways of emptying a hand** that differ in what is broadcast first. -/
theorem sameLinks_letGo (p item : ℕ) (g : Game α) :
    SameLinks (g.released p item) (g.letGo p item) :=
  ⟨⟨fun _ => rfl, fun _ => rfl, rfl, rfl, rfl, rfl, fun _ => rfl, fun _ => rfl, fun _ => rfl,
    fun _ => rfl, fun _ => rfl⟩,
    fun _ => rfl, fun _ => rfl, fun _ => rfl, fun _ => rfl⟩

theorem Sound.letGo (hg : Sound fits g) {p e : ℕ} (hheld : (g.people p).held = some e) :
    Sound fits (g.letGo p e) :=
  (hg.released hheld).sameLinks (sameLinks_letGo p e g)

/-! ## The tree -/

/-- **An entity that has an id is moved** to a parent that has one. -/
theorem Sound.moved (hg : Sound fits g) {self : ℕ} {parent : Option ℕ} {x y : Option ℚ}
    (hself : g.Listed (.entity self)) (hparent : ∀ p, parent = some p →
      g.Listed (.entity p) ∧ fits (g.entities self).kind (g.entities p).kind) :
    Sound fits (g.moved self parent x y) := by
  refine hg.sameObjects (.moved g self parent x y) (hg.tree.moved self parent x y)
    (fun e p hp => ?_) (hg.hands.same (fun _ => rfl) (fun _ => rfl) le_rfl le_rfl) hg.held
  rw [moved_parent] at hp
  split_ifs at hp with he
  · rw [he]
    exact ⟨hself, hparent p hp⟩
  · exact hg.parent e p hp

/-- `Entity.remove` of a child, which nobody is told. -/
theorem remove_apply {e p : ℕ} (h : (g.entities e).parent = some p) :
    remove p e g = .ok () (g.placed e none none none) := by
  show Outcome.ok () ((g.mapEntity e (fun v => { v with parent := none })).mapEntity p
    (fun v => { v with children := v.children.erase e })) = _
  rw [mapEntity_eq, mapEntity_eq]
  refine congrArg (fun f => Outcome.ok () ({ g with entities := f } : Game α)) (funext fun i => ?_)
  rw [h]
  unfold changeAt Entity.moved movedChildren
  rcases eq_or_ne i e with rfl | he <;> rcases eq_or_ne i p with rfl | hp
  · simp
  · simp [hp, hp.symm]
  · simp [he]
  · simp [he, hp, hp.symm]

theorem Sound.placed (hg : Sound fits g) {e : ℕ} (he : g.Listed (.entity e)) :
    Sound fits (g.placed e none none none) := by
  have h : SameLinks (g.moved e none none none) (g.placed e none none none) :=
    ⟨⟨fun _ => rfl, fun _ => rfl, rfl, rfl, rfl, rfl, fun _ => rfl, fun _ => rfl, fun _ => rfl,
      fun _ => rfl, fun _ => rfl⟩, fun _ => rfl, fun _ => rfl, fun _ => rfl, fun _ => rfl⟩
  refine (hg.moved (x := none) (y := none) he (fun p hp => ?_)).sameLinks h
  cases hp

/-! ## Objects that come and go -/

/-- **A free id.** -/
theorem objects_free (L : Dict.Length Obj) (g : Game α) :
    g.objects.get (L.border g.objects + 1) = none :=
  (L.isBorder g.objects).2

/-- What an entity that is made is in no relation to. -/
structure Entity.Blank (v : Entity) : Prop where
  /-- It has no id. -/
  id : v.id = none
  /-- It has no parent. -/
  parent : v.parent = none
  /-- It has no children. -/
  children : v.children = []
  /-- Nobody holds it. -/
  heldBy : v.heldBy = none
  /-- If it is a pile, it is one of stones. -/
  stock : ∀ k n, v.item = some (k, n) → k = .goPiece

theorem Kind.blank (kind : Kind) (name : Bytes) : (kind.entity name).Blank := by
  refine ⟨rfl, rfl, rfl, rfl, fun k n h => ?_⟩
  change none = some (k, n) at h
  cases h

theorem alloc_entities (v : Entity) (e : ℕ) :
    (g.alloc v).entities e = if e = g.nextEntity then v else g.entities e :=
  Function.update_apply _ _ _ _

theorem alloc_entities_of_lt (v : Entity) {e : ℕ} (he : e < g.nextEntity) :
    (g.alloc v).entities e = g.entities e := by
  rw [alloc_entities, if_neg he.ne]

/-- **An entity is made.** -/
theorem Sound.alloc (hg : Sound fits g) {v : Entity} (hv : v.Blank) : Sound fits (g.alloc v) := by
  obtain ⟨hnot, hparent, hchildren, hby, -⟩ := hg.fresh (le_refl g.nextEntity)
  -- entity by entity the relations are the same
  have hsame : ∀ e, ((g.alloc v).entities e).parent = (g.entities e).parent
      ∧ ((g.alloc v).entities e).children = (g.entities e).children
      ∧ ((g.alloc v).entities e).heldBy = (g.entities e).heldBy := fun e => by
    rw [alloc_entities]
    split_ifs with he
    · rw [he, hv.parent, hv.children, hv.heldBy, hparent, hchildren, hby]
      exact ⟨rfl, rfl, rfl⟩
    · exact ⟨rfl, rfl, rfl⟩
  have hold : ∀ e, g.Listed (.entity e) → (g.alloc v).entities e = g.entities e :=
    fun e he => alloc_entities_of_lt v (hg.entity e he)
  refine ⟨hg.inverse, fun id o ho => ?_, hg.pos, fun e he => (hg.entity e he).trans
    (Nat.lt_succ_self _), hg.player_iff, ⟨fun p e => ?_, fun p => ?_⟩, fun e p hp => ?_,
    hg.hands.same (fun _ => rfl) (fun e => (hsame e).2.2) le_rfl (Nat.le_succ _),
    fun p e he => ?_, fun e k n hk => ?_, fun n f hf => ?_, hg.players⟩
  · rw [← hg.id_of id o ho]
    cases o with
    | game => rfl
    | entity e => exact congrArg Entity.id (hold e ⟨id, ho⟩)
    | player p => rfl
  · rw [(hsame p).2.1, (hsame e).1]
    exact hg.tree.child_iff p e
  · rw [(hsame p).2.1]
    exact hg.tree.nodup p
  · rw [(hsame e).1] at hp
    have h := hg.parent e p hp
    rw [hold e h.1, hold p h.2.1]
    exact h
  · have h := hg.held p e he
    rw [hold e h.1]
    exact h
  · rw [alloc_entities] at hk
    split_ifs at hk
    · exact hv.stock k n hk
    · exact hg.stock e k n hk
  · have h := hg.fields n f hf
    rw [hold f h.1]
    exact h

theorem enrolled_entities (o : Obj) (id : ℕ) (e : ℕ) : (g.enrolled o id).entities e
    = if o = .entity e then { g.entities e with id := some id } else g.entities e := by
  cases o with
  | game => rfl
  | player p => rfl
  | entity i =>
    show Function.update g.entities i _ e = _
    rw [Function.update_apply]
    rcases eq_or_ne e i with rfl | he
    · rw [if_pos rfl, if_pos rfl]
    · rw [if_neg he, if_neg (fun h => he (Obj.entity.inj h).symm)]

theorem enrolled_people (o : Obj) (id : ℕ) (p : ℕ) : (g.enrolled o id).people p
    = if o = .player p then { g.people p with id := some id } else g.people p := by
  cases o with
  | game => rfl
  | entity e => rfl
  | player q =>
    show Function.update g.people q _ p = _
    rw [Function.update_apply]
    rcases eq_or_ne p q with rfl | hp
    · rw [if_pos rfl, if_pos rfl]
    · rw [if_neg hp, if_neg (fun h => hp (Obj.player.inj h).symm)]

theorem enrolled_objects (o : Obj) (id : ℕ) :
    (g.enrolled o id).objects = g.objects.set id o
      ∧ (g.enrolled o id).rObjects = g.rObjects.set o id := by
  cases o <;> exact ⟨rfl, rfl⟩

theorem enrolled_rest (o : Obj) (id : ℕ) : (g.enrolled o id).fields = g.fields
    ∧ (g.enrolled o id).players = g.players ∧ (g.enrolled o id).nextEntity = g.nextEntity
    ∧ (g.enrolled o id).nextPlayer = g.nextPlayer := by
  cases o <;> exact ⟨rfl, rfl, rfl, rfl⟩

/-- What has an id when an object has got one. -/
theorem enrolled_listed {o : Obj} {id : ℕ} (hfree : g.objects.get id = none) (o' : Obj) :
    (g.enrolled o id).Listed o' ↔ o' = o ∨ g.Listed o' := by
  unfold Game.Listed
  rw [(enrolled_objects o id).1]
  constructor
  · rintro ⟨id', h⟩
    rw [Dict.get_set] at h
    split_ifs at h
    · exact Or.inl (Option.some.inj h).symm
    · exact Or.inr ⟨id', h⟩
  · rintro (rfl | ⟨id', h⟩)
    · exact ⟨id, Dict.get_set_self _ _ _⟩
    · refine ⟨id', ?_⟩
      rw [Dict.get_set_of_ne _ _ (fun he => ?_), h]
      rw [he, hfree] at h
      cases h

/-- The fields an id is no part of. -/
theorem enrolled_links (o : Obj) (id : ℕ) (e p : ℕ) :
    ((g.enrolled o id).entities e).kind = (g.entities e).kind
      ∧ ((g.enrolled o id).entities e).parent = (g.entities e).parent
      ∧ ((g.enrolled o id).entities e).children = (g.entities e).children
      ∧ ((g.enrolled o id).entities e).heldBy = (g.entities e).heldBy
      ∧ ((g.enrolled o id).people p).held = (g.people p).held
      ∧ ((g.enrolled o id).people p).name = (g.people p).name
      ∧ ((g.enrolled o id).entities e).item = (g.entities e).item := by
  rw [enrolled_entities, enrolled_people]
  split_ifs <;> exact ⟨rfl, rfl, rfl, rfl, rfl, rfl, rfl⟩

/-- **An entity that was made gets an id.** -/
theorem Sound.enrolled (hg : Sound fits g) {e₀ id : ℕ} (hnot : ¬g.Listed (.entity e₀))
    (hfree : g.objects.get id = none) (hid : id ≠ 0) (he₀ : e₀ < g.nextEntity) :
    Sound fits (g.enrolled (.entity e₀) id) := by
  -- an entity without an id is under none, so that the two tables stay inverse
  have hnone : g.rObjects.get (.entity e₀) = none :=
    Option.eq_none_iff_forall_ne_some.mpr (fun id' h => hnot ⟨id', (hg.inverse id' _).mpr h⟩)
  have hlisted : ∀ o, g.Listed o → (g.enrolled (.entity e₀) id).Listed o :=
    fun o h => (enrolled_listed hfree o).mpr (Or.inr h)
  have hlinks := enrolled_links (g := g) (.entity e₀) id
  refine ⟨?_, fun id' o ho => ?_, ?_, fun e he => ?_, fun p => ?_, ⟨fun p e => ?_, fun p => ?_⟩,
    fun e p hp => ?_, ?_, fun p e he => ?_, fun e k n hk => ?_, fun n f hf => ?_, hg.players⟩
  · rw [(enrolled_objects _ id).1, (enrolled_objects _ id).2]
    exact hg.inverse.set hfree hnone
  · rw [(enrolled_objects _ id).1, Dict.get_set] at ho
    split_ifs at ho with hid'
    · obtain rfl := Option.some.inj ho
      show ((g.enrolled _ id).entities e₀).id = _
      rw [enrolled_entities, if_pos rfl, hid']
    · rw [← hg.id_of id' o ho]
      cases o with
      | game => rfl
      | player p => rfl
      | entity e =>
        show ((g.enrolled _ id).entities e).id = _
        rw [enrolled_entities, if_neg (fun h => hnot (by rw [h]; exact ⟨id', ho⟩))]
        rfl
  · rw [(enrolled_objects _ id).1, Dict.get_set_of_ne _ _ hid.symm, hg.pos]
  · rcases (enrolled_listed hfree _).mp he with h | h
    · rw [Obj.entity.inj h]
      exact he₀
    · exact hg.entity e h
  · rw [enrolled_listed hfree]
    refine (or_iff_right ?_).trans (hg.player_iff p)
    simp
  · rw [(hlinks p 0).2.2.1, (hlinks e 0).2.1]
    exact hg.tree.child_iff p e
  · rw [(hlinks p 0).2.2.1]
    exact hg.tree.nodup p
  · rw [(hlinks e 0).2.1] at hp
    rw [(hlinks e 0).1, (hlinks p 0).1]
    have h := hg.parent e p hp
    exact ⟨hlisted _ h.1, hlisted _ h.2.1, h.2.2⟩
  · exact hg.hands.same (fun p => (hlinks 0 p).2.2.2.2.1)
      (fun e => (hlinks e 0).2.2.2.1) le_rfl le_rfl
  · rw [(hlinks e 0).1]
    have h := hg.held p e he
    exact ⟨hlisted _ h.1, h.2⟩
  · rw [(hlinks e 0).2.2.2.2.2.2] at hk
    exact hg.stock e k n hk
  · rw [(hlinks f 0).1]
    have h := hg.fields n f hf
    exact ⟨hlisted _ h.1, h.2⟩

/-- **An object that has an id is registered again.** -/
theorem sameLinks_enrolled {o : Obj} {id : ℕ} (hid : g.idOf o = some id)
    (ho : g.objects.get id = some o) (hr : g.rObjects.get o = some id) :
    SameLinks g (g.enrolled o id) := by
  have hlinks := enrolled_links (g := g) o id
  refine ⟨⟨fun id' => ?_, fun o' => ?_, (enrolled_rest o id).1, (enrolled_rest o id).2.1,
    (enrolled_rest o id).2.2.1, (enrolled_rest o id).2.2.2, fun e => (hlinks e 0).1,
    fun e => (hlinks e 0).2.2.2.2.2.2, fun e => ?_, fun p => ?_,
    fun p => (hlinks 0 p).2.2.2.2.2.1⟩, fun e => (hlinks e 0).2.1,
    fun e => (hlinks e 0).2.2.1, fun e => (hlinks e 0).2.2.2.1, fun p => (hlinks 0 p).2.2.2.2.1⟩
  · rw [(enrolled_objects o id).1]
    exact Dict.get_set_again ho id'
  · rw [(enrolled_objects o id).2]
    exact Dict.get_set_again hr o'
  · rw [enrolled_entities]
    split_ifs with h
    · rw [h] at hid
      exact hid.symm
    · rfl
  · rw [enrolled_people]
    split_ifs with h
    · rw [h] at hid
      exact hid.symm
    · rfl

theorem Sound.enrolled_again (hg : Sound fits g) {o : Obj} {id : ℕ}
    (ho : g.objects.get id = some o) : Sound fits (g.enrolled o id) :=
  hg.sameLinks (sameLinks_enrolled (hg.id_of id o ho) ho ((hg.inverse id o).mp ho))

/-- What has an id when an object has lost one. -/
theorem struck_listed (hg : Sound fits g) {o : Obj} {id : ℕ} (ho : g.objects.get id = some o)
    (o' : Obj) : (g.struck o id).Listed o' ↔ g.Listed o' ∧ o' ≠ o := by
  show (∃ id', (g.objects.erase id).get id' = some o') ↔ _
  constructor
  · rintro ⟨id', h⟩
    rw [Dict.get_erase] at h
    split_ifs at h with hid
    exact ⟨⟨id', h⟩, fun ho' => hid (hg.id_unique (ho' ▸ h) ho)⟩
  · rintro ⟨⟨id', h⟩, hne⟩
    refine ⟨id', ?_⟩
    rw [Dict.get_erase_of_ne _ (fun hid => hne ?_), h]
    rw [hid, ho] at h
    exact (Option.some.inj h).symm

/-- **An entity in no relation to others loses its id.** -/
theorem Sound.struck (hg : Sound fits g) {e₀ id : ℕ} (ho : g.objects.get id = some (.entity e₀))
    (hparent : (g.entities e₀).parent = none) (hchildren : (g.entities e₀).children = [])
    (hby : (g.entities e₀).heldBy = none) (hkind : (g.entities e₀).kind ≠ .field) :
    Sound fits (g.struck (.entity e₀) id) := by
  have hlisted := struck_listed hg ho
  -- whatever refers to an entity refers to another one
  have hold : ∀ e, e ≠ e₀ → g.Listed (.entity e) → (g.struck (.entity e₀) id).Listed (.entity e) :=
    fun e he h => (hlisted _).mpr ⟨h, fun h' => he (Obj.entity.inj h')⟩
  refine ⟨hg.inverse.erase ho, fun id' o h => ?_, ?_, fun e he => hg.entity e ((hlisted _).mp he).1,
    fun p => ?_, ⟨hg.tree.child_iff, hg.tree.nodup⟩, fun e p hp => ?_, ⟨hg.hands.held_iff,
    hg.hands.made⟩, fun p e he => ?_, hg.stock, fun n f hf => ?_, hg.players⟩
  · have h' : (g.objects.erase id).get id' = some o := h
    rw [Dict.get_erase] at h'
    split_ifs at h'
    rw [← hg.id_of id' o h']
    cases o <;> rfl
  · show (g.objects.erase id).get 0 = none
    rw [Dict.get_erase, hg.pos, ite_self]
  · refine (hlisted _).trans ((and_iff_left ?_).trans (hg.player_iff p))
    simp
  · have h := hg.parent e p hp
    refine ⟨hold e ?_ h.1, hold p ?_ h.2.1, h.2.2⟩
    · rintro rfl
      change (g.entities e).parent = some p at hp
      rw [hparent] at hp
      cases hp
    · rintro rfl
      have hmem := (hg.tree.child_iff p e).mpr hp
      rw [hchildren] at hmem
      cases hmem
  · have h := hg.held p e he
    refine ⟨hold e ?_ h.1, h.2⟩
    rintro rfl
    have hheld := (hg.hands.held_iff p e).mp he
    rw [hby] at hheld
    cases hheld
  · have h := hg.fields n f hf
    refine ⟨hold f ?_ h.1, h.2⟩
    rintro rfl
    exact hkind h.2

/-! ## Fields and players -/

/-- A field gets its name. -/
theorem Sound.named (hg : Sound fits g) {n : Bytes} {f : ℕ} (hf : g.Listed (.entity f))
    (hkind : (g.entities f).kind = .field) :
    Sound fits { g with fields := g.fields.set n f } := by
  refine ⟨hg.inverse, fun id o ho => ?_, hg.pos, hg.entity, hg.player_iff, ⟨hg.tree.child_iff,
    hg.tree.nodup⟩, hg.parent, ⟨hg.hands.held_iff, hg.hands.made⟩, hg.held, hg.stock,
    fun n' f' h => ?_,
    hg.players⟩
  · rw [← hg.id_of id o ho]
    cases o <;> rfl
  · have h' : (g.fields.set n f).get n' = some f' := h
    rw [Dict.get_set] at h'
    split_ifs at h'
    · obtain rfl := Option.some.inj h'
      exact ⟨hf, hkind⟩
    · exact hg.fields n' f' h'

/-- The game when a player has been made that is in no table. -/
def Game.born (v : Player α) (g : Game α) : Game α :=
  { g with nextPlayer := g.nextPlayer + 1, people := Function.update g.people g.nextPlayer v }

/-- **The game when a new player has come.** -/
def Game.seated (name : Bytes) (r g b : Value α) (id : ℕ) (s : Game α) : Game α :=
  let s' := (s.born ⟨name, none, none, r, g, b⟩).enrolled (.player s.nextPlayer) id
  { s' with players := s'.players.set name s.nextPlayer }

theorem born_people (v : Player α) (p : ℕ) :
    (g.born v).people p = if p = g.nextPlayer then v else g.people p :=
  Function.update_apply _ _ _ _

theorem Hands.born (h : Hands g) {v : Player α} (hv : v.held = none) : Hands (g.born v) := by
  refine h.same (fun p => ?_) (fun _ => rfl) (Nat.le_succ _) le_rfl
  rw [born_people]
  split_ifs with hp
  · rw [hv, hp, h.held_of_le le_rfl]
  · rfl

/-- **A new player gets an id and a name.** -/
theorem Sound.seated (hg : Sound fits g) {name : Bytes} {r b c : Value α} {id : ℕ}
    (hfree : g.objects.get id = none) (hid : id ≠ 0) :
    Sound fits (g.seated name r b c id) := by
  have hnot : ¬g.Listed (.player g.nextPlayer) := fun h => lt_irrefl _ ((hg.player_iff _).mp h)
  have hnone : g.rObjects.get (.player g.nextPlayer) = none :=
    Option.eq_none_iff_forall_ne_some.mpr (fun id' h => hnot ⟨id', (hg.inverse id' _).mpr h⟩)
  have hlisted : ∀ o, (g.seated name r b c id).Listed o ↔ o = .player g.nextPlayer ∨ g.Listed o :=
    enrolled_listed (g := g.born _) hfree
  have hpeople : ∀ p, (g.seated name r b c id).people p
      = ((g.born ⟨name, none, none, r, b, c⟩).enrolled (.player g.nextPlayer) id).people p :=
    fun _ => rfl
  -- the players there were are as they were
  have hold : ∀ p, p < g.nextPlayer → (g.seated name r b c id).people p = g.people p := by
    intro p hp
    rw [hpeople, enrolled_people, if_neg (fun h => hp.ne (Obj.player.inj h).symm), born_people,
      if_neg hp.ne]
  have hheld : ∀ p, ((g.seated name r b c id).people p).held = (g.people p).held := fun p => by
    rcases lt_or_ge p g.nextPlayer with hp | hp
    · rw [hold p hp]
    · have hlinks := (enrolled_links (g := g.born ⟨name, none, none, r, b, c⟩)
        (.player g.nextPlayer) id 0 p).2.2.2.2.1
      rw [hg.hands.held_of_le hp]
      refine hlinks.trans ?_
      rw [born_people]
      split_ifs
      · rfl
      · exact hg.hands.held_of_le hp
  refine ⟨hg.inverse.set hfree hnone, fun id' o ho => ?_, ?_, fun e he => ?_, fun p => ?_,
    ⟨hg.tree.child_iff, hg.tree.nodup⟩, fun e p hp => ?_, hg.hands.same hheld (fun _ => rfl)
    (Nat.le_succ _) le_rfl, fun p e he => ?_, hg.stock, fun n f hf => ?_, fun n p hp => ?_⟩
  · have ho' : (g.objects.set id (.player g.nextPlayer)).get id' = some o := ho
    rw [Dict.get_set] at ho'
    split_ifs at ho' with hid'
    · obtain rfl := Option.some.inj ho'
      show ((g.seated name r b c id).people g.nextPlayer).id = _
      rw [hpeople, enrolled_people, if_pos rfl, hid']
    · rw [← hg.id_of id' o ho']
      cases o with
      | game => rfl
      | entity e => rfl
      | player p => exact congrArg Player.id (hold p ((hg.player_iff p).mp ⟨id', ho'⟩))
  · show (g.objects.set id _).get 0 = none
    rw [Dict.get_set_of_ne _ _ hid.symm, hg.pos]
  · refine hg.entity e (((hlisted _).mp he).resolve_left ?_)
    simp
  · rw [hlisted]
    show _ ↔ p < g.nextPlayer + 1
    rw [hg.player_iff, Obj.player.injEq]
    omega
  · have h := hg.parent e p hp
    exact ⟨(hlisted _).mpr (Or.inr h.1), (hlisted _).mpr (Or.inr h.2.1), h.2.2⟩
  · rw [hheld] at he
    have h := hg.held p e he
    exact ⟨(hlisted _).mpr (Or.inr h.1), h.2⟩
  · have h := hg.fields n f hf
    exact ⟨(hlisted _).mpr (Or.inr h.1), h.2⟩
  · have hp' : (g.players.set name g.nextPlayer).get n = some p := hp
    rw [Dict.get_set] at hp'
    show p < g.nextPlayer + 1 ∧ _
    split_ifs at hp' with hn
    · obtain rfl := Option.some.inj hp'
      refine ⟨Nat.lt_succ_self _, ?_⟩
      rw [hpeople, enrolled_people, if_pos rfl, hn]
      show ((g.born _).people g.nextPlayer).name = _
      rw [born_people, if_pos rfl]
    · have h := hg.players n p hp'
      rw [hold p h.1]
      exact ⟨h.1.trans (Nat.lt_succ_self _), h.2⟩

end Sound

end Server

end Felt
