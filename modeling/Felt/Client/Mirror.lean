import Felt.Lua.Numeral
import Felt.Server.Update

/-!
# What a client makes of the server's messages

A client has a mirror of every object the server has told it about, and the
tables of a game: which mirror has which id, which id a mirror has, the fields
and the players. A message mentions objects as ids, which are looked up, or
carries them whole, which makes a new mirror – of the most specialised class
the client has: `game.felt.Field`, `game.felt.Entity` or `game.felt.Object`.
An object that comes when there is a game is registered as soon as it is made.

The mirrors' methods are written apart from the server's, and are not the
same: `moveto` to nowhere, for one, leaves the old parent's list alone.

A client that fails to receive a message disconnects, so that nothing is said
about what it has by then. The graphics are left out: what the methods ask of
Qt is taken to succeed. So is what the text of a message does to the window.

`receive` is in two parts, as unpacking and dispatching are. `build` makes a
mirror for each object the message carries, in order, and registers it if there
is a game; what is mentioned is then looked up, an id in the tables and a whole
object among what was made. The method of the message is called with the mirrors
that were found.

An object in a message names itself: which object of the server's game it is that
was packed is written next to its constructor. No function of the client reads
that; it is what the relation between the two sides is stated with.
-/

namespace Felt

namespace Client

open Server (Obj Kind Packed Ctor Call Key Msg)

/-- **What a client's tables hold**: the game, or a mirror, by its number. -/
inductive Ref where
  /-- The game. -/
  | game
  /-- A mirror. -/
  | mirror (a : ℕ)
  deriving DecidableEq

/-- **A mirror** of an object. `object` is which one the server packed;
nothing reads it. -/
structure Mirror (α : Type) where
  /-- The object that was packed. -/
  object : Obj
  /-- The class of an entity; a player has none. -/
  kind : Option Kind
  /-- `id`. -/
  id : Option ℕ
  /-- `name`. -/
  name : Bytes
  /-- `x`. -/
  x : Number
  /-- `y`. -/
  y : Number
  /-- `parent`. -/
  parent : Option Ref
  /-- `children`. -/
  children : List Ref
  /-- `held`. -/
  held : Option Ref
  /-- `held_by`. -/
  heldBy : Option Ref
  /-- `r`. -/
  r : Value α
  /-- `g`. -/
  g : Value α
  /-- `b`. -/
  b : Value α

/-- **The model of a client.** Mirrors are numbered in the order they are
made. -/
structure Model (α : Type) where
  /-- The mirrors. -/
  heap : ℕ → Mirror α
  /-- How many mirrors were made. -/
  next : ℕ
  /-- Whether there is a game. -/
  loaded : Bool
  /-- `objects`. -/
  objects : Dict ℕ Ref
  /-- `r_objects`. -/
  rObjects : Dict Ref ℕ
  /-- `fields`. -/
  fields : Dict Bytes Ref
  /-- `players`. -/
  players : Dict Bytes Ref

/-- The errors a message can cause. -/
inductive ReceiveError where
  /-- `invalid backreference`: an object is inside its own constructor. -/
  | backreference
  /-- `invalid object reference`. -/
  | reference
  /-- `table index is nil`. -/
  | nilIndex
  /-- `No method %s in %s`, or a method that is nil. -/
  | noMethod
  /-- The `assert` of `Entity.delete`. -/
  | hasParent
  /-- A field has no `qgraphics`. -/
  | noGraphics
  deriving DecidableEq

variable {α : Type}

namespace Model

/-- A client that has received nothing. -/
def fresh : Model α where
  heap _ := ⟨.game, none, none, [], .fin 0, .fin 0, none, [], none, none, .nil, .nil, .nil⟩
  next := 0
  loaded := false
  objects := .empty
  rObjects := .empty
  fields := .empty
  players := .empty

/-- Change the fields of a mirror. -/
def mapMirror (r : Ref) (f : Mirror α → Mirror α) (c : Model α) : Model α :=
  match r with
  | .game => c
  | .mirror a => { c with heap := Function.update c.heap a (f (c.heap a)) }

/-- `object.id`. -/
def idOf (c : Model α) : Ref → Option ℕ
  | .game => some 0
  | .mirror a => (c.heap a).id

/-- `object.parent`. -/
def parentOf (c : Model α) : Ref → Option Ref
  | .game => none
  | .mirror a => (c.heap a).parent

/-- Whether an object is an entity. -/
def isEntity (c : Model α) : Ref → Bool
  | .game => false
  | .mirror a => (c.heap a).kind.isSome

/-! ## The methods of the mirrors -/

/-- `Entity.remove`. -/
def remove (self child : Ref) (c : Model α) : Model α :=
  (c.mapMirror child (fun v => { v with parent := none })).mapMirror self
    (fun v => { v with children := v.children.erase child })

/-- `Entity.add`, and `Field.add`. -/
def add (self child : Ref) (c : Model α) : Model α :=
  (c.mapMirror child (fun v => { v with parent := some self })).mapMirror self
    (fun v => { v with children := v.children ++ [child] })

/-- `if parent and self.parent and self.parent ~= parent then
self.parent:remove(self) end`. -/
def leaveParent (self : Ref) (parent : Option Ref) (c : Model α) : Model α :=
  match parent, c.parentOf self with
  | some p, some q => if q ≠ p then c.remove q self else c
  | _, _ => c

/-- `if parent and self.parent ~= parent then parent:add(self) end`. -/
def joinParent (self : Ref) (parent : Option Ref) (c : Model α) :
    Except ReceiveError (Model α) :=
  match parent with
  | none => .ok c
  | some p =>
    if c.parentOf self = some p then .ok c
    else if c.isEntity p then .ok (c.add p self)
    else .error .noMethod

/-- `Entity.moveto`. It places the `qgraphics` of an entity, which a field
does not have. -/
def moveto (self : Ref) (parent : Option Ref) (x y : Option Number) (c : Model α) :
    Except ReceiveError (Model α) :=
  match self with
  | .game => .error .noMethod
  | .mirror a =>
    match (c.heap a).kind with
    | none => .error .noMethod
    | some .field => .error .noGraphics
    | some _ => do
      let c₁ := c.leaveParent self parent
      let c₂ := c₁.mapMirror self (fun v => { v with x := x.getD v.x, y := y.getD v.y })
      let c₃ ← c₂.joinParent self parent
      pure (c₃.mapMirror self (fun v => { v with parent := parent }))

/-- `Object.set`. -/
def set (self : Ref) (key : Key) (value : Option Ref) (c : Model α) :
    Except ReceiveError (Model α) :=
  match self with
  | .game => .error .noMethod
  | .mirror _ =>
    match key with
    | .held => .ok (c.mapMirror self (fun v => { v with held := value }))
    | .heldBy => .ok (c.mapMirror self (fun v => { v with heldBy := value }))

/-- `Object.delete`, and `Entity.delete`, which takes the `qgraphics` from its
scene. -/
def delete (self : Ref) (c : Model α) : Except ReceiveError Unit :=
  match self with
  | .game => .error .noMethod
  | .mirror a =>
    match (c.heap a).kind with
    | none => .ok ()
    | some k =>
      if (c.heap a).parent ≠ none then .error .hasParent
      else if k = .field then .error .noGraphics
      else .ok ()

/-! ## The methods of the game -/

/-- `Game.addObject`. -/
def addObject (object : Ref) (c : Model α) : Except ReceiveError (Model α) :=
  match c.idOf object with
  | none => .error .nilIndex
  | some id =>
    .ok { c with objects := c.objects.set id object, rObjects := c.rObjects.set object id }

/-- `Game.deleteObject`. -/
def deleteObject (object : Ref) (c : Model α) : Except ReceiveError (Model α) := do
  c.delete object
  match c.idOf object with
  | none => .error .nilIndex
  | some id =>
    .ok { c with objects := c.objects.erase id, rObjects := c.rObjects.erase object }

/-- `Game.addPlayer`. The game itself has no name. -/
def addPlayer (player : Ref) (c : Model α) : Except ReceiveError (Model α) :=
  match player with
  | .game => .error .nilIndex
  | .mirror a => .ok { c with players := c.players.set (c.heap a).name player }

/-- One round of the loop that fills `r_objects`. -/
def indexEntry (r : Dict Ref ℕ) (c : Model α) (object : Ref) : Dict Ref ℕ :=
  match c.idOf object with
  | some id => r.set object id
  | none => r.erase object

/-- `Game.__unpack`, and `client.api.game`. -/
def game (objects : Dict ℕ Ref) (fields players : Dict Bytes Ref) (c : Model α) : Model α :=
  let objects := objects.set 0 .game
  { c with
    loaded := true
    objects := objects
    rObjects := objects.values.foldl (fun r o => indexEntry r c o) .empty
    fields := fields
    players := players }

/-! ## Receiving a message -/

/-- A coordinate when it has been sent. -/
def sent (q : ℚ) : Number := (Number.fin q).reread

/-- What stands in a message for an object: what `objects` has under the id,
or the mirror that is made of what the message carries. -/
def find (c : Model α) (m : Msg α) : Packed → Option Ref
  | .known id _ => if c.loaded then c.objects.get id else none
  | .whole o => (m.carried.findIdx? (fun p => p.1 = o)).map (fun k => .mirror (c.next + k))

/-- What stands in a message for an object, if there is something. -/
def denotes (c : Model α) (m : Msg α) (o : Packed) : Ref := (c.find m o).getD .game

/-- The mirror that a constructor makes. -/
def instantiate (d : Packed → Ref) (o : Obj) : Ctor α → Mirror α
  | .entity kind id name x y _ _ _ children _ =>
    ⟨o, some kind, id, name, sent x, sent y, none, children.map d, none, none, .nil, .nil, .nil⟩
  | .player id name held r g b =>
    ⟨o, none, id, name, .fin 0, .fin 0, none, [], held.map d, none, r, g, b⟩

/-- The model when the mirrors have been made of what the message carries. -/
def allocate (vs : List (Mirror α)) (c : Model α) : Model α :=
  { c with
    heap := fun a => if a < c.next then c.heap a else vs.getD (a - c.next) (c.heap a)
    next := c.next + vs.length }

/-- `for child in self:childrenBTF() do child.parent = self end`. -/
def adopt (a : ℕ) (c : Model α) : Model α :=
  (c.heap a).children.foldl
    (fun c child => c.mapMirror child (fun v => { v with parent := some (.mirror a) })) c

/-- `if client.getGame() then client.getGame():addObject(obj) end`, for an
object with an id or a client without a game. -/
def register (a : ℕ) (c : Model α) : Model α :=
  match c.loaded, (c.heap a).id with
  | true, some id =>
    { c with objects := c.objects.set id (.mirror a), rObjects := c.rObjects.set (.mirror a) id }
  | _, _ => c

/-- The part of `Object.__unpack` behind the fields of the object. -/
def enter (a : ℕ) (c : Model α) : Model α := (c.adopt a).register a

/-- **The model when everything has been made that the message carries.** -/
def build (m : Msg α) (c : Model α) : Model α :=
  let vs := m.carried.map (fun p => instantiate (c.denotes m) p.1 p.2)
  (List.range' c.next vs.length).foldl (fun c a => c.enter a) (c.allocate vs)

end Model

/-- Whether what is mentioned is an id, or stands in the list. -/
def isGrounded (os : List Obj) : Packed → Bool
  | .known _ _ => true
  | .whole o => o ∈ os

/-- What can be made of the objects a message carries, within so many
rounds. -/
def grounded (m : Msg α) : ℕ → List Obj
  | 0 => []
  | n + 1 =>
    (m.carried.filter (fun p => p.2.mentions.all (isGrounded (grounded m n)))).map Prod.fst

/-- **No object is inside its own constructor.** -/
def Grounded (m : Msg α) : Prop := ∀ p ∈ m.carried, p.1 ∈ grounded m m.carried.length

instance (m : Msg α) : Decidable (Grounded m) := inferInstanceAs (Decidable (∀ p ∈ _, _))

namespace Model

/-- `msg.self[msg.method](msg.self, …)` and `client.api[msg.method](…)`.

The text of a message is formatted once more before it is shown, which a
percent sign in a name may make fail (`messages_shown_iff`); names are taken to
have none here, and a message leaves the mirrors alone. -/
def dispatch (d : Packed → Ref) (call : Call α) (c : Model α) : Except ReceiveError (Model α) :=
  match call with
  | .addObject self o => if d self = .game then c.addObject (d o) else .error .noMethod
  | .deleteObject self o => if d self = .game then c.deleteObject (d o) else .error .noMethod
  | .addPlayer self p => if d self = .game then c.addPlayer (d p) else .error .noMethod
  | .set self key value => c.set (d self) key (value.map d)
  | .moveto self parent x y => c.moveto (d self) (parent.map d) (x.map sent) (y.map sent)
  | .message _ => .ok c
  | .chat _ _ => .ok c
  | .game objects fields players => .ok (c.game (objects.map d) (fields.map d) (players.map d))

/-- **A client receives a message**: it is unpacked, and then dispatched. No
message mentions an id that it also gives out, so that the ids are looked up
before anything is registered. -/
def receive (m : Msg α) (c : Model α) : Except ReceiveError (Model α) :=
  if ¬Grounded m then .error .backreference
  else if ∃ o ∈ m.mentions, c.find m o = none then .error .reference
  else if c.loaded = true ∧ ∃ p ∈ m.carried, p.2.id = none then .error .nilIndex
  else (c.build m).dispatch (c.denotes m) m.call

/-- Messages are received, one after the other. -/
def receiveAll (ms : List (Msg α)) (c : Model α) : Except ReceiveError (Model α) :=
  ms.foldlM (fun c m => c.receive m) c

/-! ## What is received -/

variable {m : Msg α} {c c' : Model α}

/-- **A message is received** when nothing stands in the way of unpacking it. -/
theorem receive_of (hground : Grounded m) (hfind : ∀ o ∈ m.mentions, c.find m o ≠ none)
    (hid : c.loaded = true → ∀ p ∈ m.carried, p.2.id ≠ none) :
    c.receive m = (c.build m).dispatch (c.denotes m) m.call := by
  unfold receive
  rw [if_neg (not_not.mpr hground), if_neg (fun ⟨o, ho, h⟩ => hfind o ho h),
    if_neg (fun ⟨hl, p, hp, h⟩ => hid hl p hp h)]

/-- **What was received could be unpacked.** -/
theorem receive_eq_ok (h : c.receive m = .ok c') : Grounded m
    ∧ (∀ o ∈ m.mentions, c.find m o ≠ none)
    ∧ (c.loaded = true → ∀ p ∈ m.carried, p.2.id ≠ none)
    ∧ (c.build m).dispatch (c.denotes m) m.call = .ok c' := by
  unfold receive at h
  split_ifs at h with hground hfind hid
  exact ⟨hground, fun o ho hnone => hfind ⟨o, ho, hnone⟩,
    fun hl p hp hnone => hid ⟨hl, p, hp, hnone⟩, h⟩

theorem receiveAll_cons (m : Msg α) (ms : List (Msg α)) (c : Model α) :
    c.receiveAll (m :: ms) = (c.receive m).bind (receiveAll ms) := List.foldlM_cons

theorem receiveAll_singleton (m : Msg α) (c : Model α) : c.receiveAll [m] = c.receive m := by
  rw [receiveAll_cons]
  cases c.receive m <;> rfl

/-- Messages are received when the first is, and then the others. -/
theorem receiveAll_cons_eq_ok {ms : List (Msg α)} :
    c.receiveAll (m :: ms) = .ok c' ↔ ∃ c₁, c.receive m = .ok c₁ ∧ c₁.receiveAll ms = .ok c' := by
  rw [receiveAll_cons]
  rcases c.receive m with e | c₁
  · exact iff_of_false nofun (fun ⟨_, h, _⟩ => by cases h)
  · constructor
    · exact fun h => ⟨c₁, rfl, h⟩
    · rintro ⟨_, h, h'⟩
      cases h
      exact h'

/-- **A message that carries nothing** is dispatched as it is. -/
theorem build_of_plain (h : m.carried = []) : c.build m = c := by
  unfold build
  rw [h]
  show c.allocate [] = c
  unfold allocate
  simp

/-- What carries objects that mention nothing whole can be made. -/
theorem grounded_of_flat (h : ∀ p ∈ m.carried, ∀ o, .whole o ∉ p.2.mentions) : Grounded m := by
  intro p hp
  obtain ⟨n, hn⟩ : ∃ n, m.carried.length = n + 1 := by
    cases hm : m.carried with
    | nil =>
      rw [hm] at hp
      exact absurd hp List.not_mem_nil
    | cons q l => exact ⟨l.length, List.length_cons⟩
  rw [hn]
  refine List.mem_map_of_mem (List.mem_filter.mpr ⟨hp, List.all_eq_true.mpr (fun o ho => ?_)⟩)
  cases o with
  | known id o => rfl
  | whole o => exact absurd ho (h p hp o)

/-! ## A client in a game -/

/-- **A client in a game**: it has received the game, which has the id `0`. -/
structure InGame (c : Model α) : Prop where
  /-- There is a game. -/
  loaded : c.loaded = true
  /-- Its id is `0`. -/
  game : c.objects.get 0 = some .game

theorem InGame.find_known (h : c.InGame) (id : ℕ) (o : Obj) :
    c.find m (.known id o) = c.objects.get id := if_pos h.loaded

/-- **The mirror of an object that a message carries**, and no other. -/
theorem find_whole {o : Obj} {v : Ctor α} (hm : m.carried = [(o, v)]) :
    c.find m (.whole o) = some (.mirror c.next) := by
  unfold find
  rw [hm]
  simp

/-- The mirror of what mentions nothing. -/
def leaf (o : Obj) (v : Ctor α) : Mirror α := instantiate (fun _ => .game) o v

theorem instantiate_of_leaf (d : Packed → Ref) (o : Obj) {v : Ctor α} (h : v.mentions = []) :
    instantiate d o v = leaf o v := by
  cases v with
  | entity kind id name x y w ht game children count =>
    obtain rfl : children = [] := h
    rfl
  | player id name held r g b =>
    obtain rfl := Option.toList_eq_nil_iff.mp h
    rfl

theorem children_leaf (o : Obj) {v : Ctor α} (h : v.mentions = []) : (leaf o v).children = [] := by
  cases v with
  | entity kind id name x y w ht game children count =>
    obtain rfl : children = [] := h
    rfl
  | player id name held r g b => rfl

theorem id_leaf (o : Obj) (v : Ctor α) : (leaf o v).id = v.id := by
  cases v <;> rfl

/-- The model when a mirror with that id has been made. -/
def gained (v : Mirror α) (id : ℕ) (c : Model α) : Model α :=
  { c with
    heap := Function.update c.heap c.next v
    next := c.next + 1
    objects := c.objects.set id (.mirror c.next)
    rObjects := c.rObjects.set (.mirror c.next) id }

theorem allocate_singleton (v : Mirror α) (c : Model α) :
    c.allocate [v] = { c with heap := Function.update c.heap c.next v, next := c.next + 1 } := by
  have hheap : (c.allocate [v]).heap = Function.update c.heap c.next v := by
    funext a
    show (if a < c.next then c.heap a else _) = _
    rw [Function.update_apply]
    rcases lt_trichotomy a c.next with hlt | rfl | hgt
    · rw [if_pos hlt, if_neg hlt.ne]
    · rw [if_neg (lt_irrefl _), if_pos rfl, Nat.sub_self]
      rfl
    · obtain ⟨k, hk⟩ : ∃ k, a - c.next = k + 1 := ⟨a - c.next - 1, by omega⟩
      rw [if_neg hgt.not_gt, if_neg hgt.ne', hk]
      rfl
  rw [← hheap]
  rfl

/-- **One object is made** that mentions nothing, and registered. -/
theorem InGame.build_leaf (h : c.InGame) {o : Obj} {v : Ctor α} {id : ℕ}
    (hm : m.carried = [(o, v)]) (hid : v.id = some id) (hleaf : v.mentions = []) :
    c.build m = c.gained (leaf o v) id := by
  have hself : (c.allocate [leaf o v]).heap c.next = leaf o v := by
    rw [allocate_singleton]
    exact Function.update_self _ _ _
  have hadopt : (c.allocate [leaf o v]).adopt c.next = c.allocate [leaf o v] := by
    unfold adopt
    rw [hself, children_leaf o hleaf]
    rfl
  unfold build
  rw [hm]
  show ((c.allocate [instantiate (c.denotes m) o v]).adopt c.next).register c.next = _
  rw [instantiate_of_leaf _ o hleaf, hadopt]
  unfold register
  rw [hself, id_leaf, hid, allocate_singleton]
  unfold gained
  simp only [h.loaded]

/-- **A new object is announced** that mentions nothing. -/
theorem InGame.receive_new (h : c.InGame) (o : Obj) {v : Ctor α} {id : ℕ} (hid : v.id = some id)
    (hleaf : v.mentions = []) :
    c.receive ⟨.addObject (.known 0 .game) (.whole o), [(o, v)]⟩
      = .ok (c.gained (leaf o v) id) := by
  let m : Msg α := ⟨.addObject (.known 0 .game) (.whole o), [(o, v)]⟩
  have hgame : c.find m (.known 0 .game) = some .game := (h.find_known 0 .game).trans h.game
  have hwhole : c.find m (.whole o) = some (.mirror c.next) := find_whole rfl
  have hfind : ∀ p ∈ m.mentions, c.find m p ≠ none := by
    have hmentions : m.mentions = [.known 0 .game, .whole o] := by
      show [Packed.known 0 .game, .whole o] ++ [(o, v)].flatMap _ = _
      rw [List.flatMap_singleton, hleaf]
      rfl
    rw [hmentions]
    refine List.forall_mem_cons.mpr ⟨?_, List.forall_mem_singleton.mpr ?_⟩
    · rw [hgame]
      nofun
    · rw [hwhole]
      nofun
  have hground : Grounded m := grounded_of_flat (fun p hp o' => by
    rw [List.mem_singleton.mp hp, hleaf]
    exact List.not_mem_nil)
  have hids : c.loaded = true → ∀ p ∈ m.carried, p.2.id ≠ none := fun _ p hp => by
    rw [List.mem_singleton.mp hp, hid]
    nofun
  have hgame' : c.denotes m (.known 0 .game) = .game := by
    unfold denotes
    rw [hgame]
    rfl
  have hwhole' : c.denotes m (.whole o) = .mirror c.next := by
    unfold denotes
    rw [hwhole]
    rfl
  have hidOf : (c.gained (leaf o v) id).idOf (.mirror c.next) = some id := by
    show (Function.update c.heap c.next (leaf o v) c.next).id = some id
    rw [Function.update_self, id_leaf, hid]
  -- so it can be unpacked, and the method registers what was registered when it was made
  rw [receive_of hground hfind hids]
  show (if c.denotes m (.known 0 .game) = .game then (c.build m).addObject (c.denotes m (.whole o))
    else _) = _
  rw [if_pos hgame', hwhole', h.build_leaf rfl hid hleaf]
  unfold addObject
  rw [hidOf]
  unfold gained
  simp only [Dict.set_set]

end Model

end Client

end Felt
