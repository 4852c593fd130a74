import Felt.Box.Unpack
import Felt.Client.Mirror
import Felt.Server.Carried
import Felt.Server.Script

/-!
# Entities that are made with children

`Entity.__init` adopts the children of a constructor with `moveto`, which is
broadcast, and `Object.__new` registers the entity afterwards. So the entity
has no id yet when its children move to it: each `moveto` carries it whole,
without an id, and a client that unpacks it cannot put it into its tables.

An entity is made safely, then, when it is made without children, and only
then – which is how the scripts make all of theirs.

The proof that the first message cannot be received looks at one object in it. It
is packed whole, since it is in no table, and what is written for it has no id,
since it has none. A client that is in a game registers whatever it unpacks. The
moves of the other children are of no interest then: whoever fails to receive a
message has disconnected.
-/

namespace Felt

namespace Server

variable {α : Type} {g : Game α} {v : Entity}

/-! ## What the server broadcasts -/

/-- The game when these have been moved to `e`, one after the other. -/
def Game.adopting (e : ℕ) (children : List ℕ) (g : Game α) : Game α :=
  children.foldl (fun g k => g.moved k (some e) none none) g

theorem forList_add (e : ℕ) (children : List ℕ) (g : Game α) :
    Run.forList (fun child => add e child none none) children g
      = .ok () (g.adopting e children) := by
  induction children generalizing g with
  | nil => rfl
  | cons k children ih =>
    have hadd : add e k none none g = .ok () (g.moved k (some e) none none) :=
      moveto_apply _ _ _ _ _
    show (add e k none none >>= fun _ => _) g = _
    rw [Run.bind_of_ok hadd]
    exact ih _

/-- What moves to `e` changes no id. -/
theorem idOf_adopting (e : ℕ) (children : List ℕ) (g : Game α) (o : Obj) :
    (g.adopting e children).idOf o = g.idOf o := by
  induction children generalizing g with
  | nil => rfl
  | cons k children ih =>
    refine (ih _).trans ?_
    cases o <;> rfl

/-- What has been broadcast stays so. -/
theorem sent_adopting (e : ℕ) (children : List ℕ) (g : Game α) :
    ∃ ms, (g.adopting e children).sent = g.sent ++ ms := by
  induction children generalizing g with
  | nil => exact ⟨[], (List.append_nil _).symm⟩
  | cons k children ih =>
    obtain ⟨ms, hms⟩ := ih (g.moved k (some e) none none)
    refine ⟨[moveMessage k (some e) none none g] ++ ms, hms.trans ?_⟩
    rw [sent_moved, List.append_assoc]

/-- **An entity is made with children**, and registered. -/
theorem newEntity_children (L : Dict.Length Obj) (hv : v.id = none) (children : List ℕ)
    (g : Game α) : ∃ id, newEntity L v children g = .ok g.nextEntity
      (((g.alloc v).adopting g.nextEntity children).enrolled (.entity g.nextEntity) id) := by
  have hid : ((g.alloc v).adopting g.nextEntity children).idOf (.entity g.nextEntity) = none := by
    rw [idOf_adopting]
    show ((g.alloc v).entities g.nextEntity).id = none
    rw [alloc_entities, if_pos rfl, hv]
  refine ⟨L.border ((g.alloc v).adopting g.nextEntity children).objects + 1, ?_⟩
  unfold newEntity
  rw [Run.get_bind, Run.modify_bind]
  show (Run.forList _ children >>= _) (g.alloc v) = _
  rw [Run.bind_of_ok (forList_add _ _ _), Run.bind_of_ok (addObject_new L hid)]
  rfl

/-- **What is broadcast first** is the first child's move. -/
theorem sent_of_children (L : Dict.Length Obj) (hv : v.id = none) (k : ℕ) (children : List ℕ)
    (g : Game α) : ∃ g' ms, newEntity L v (k :: children) g = .ok g.nextEntity g'
      ∧ g'.sent = g.sent ++ moveMessage k (some g.nextEntity) none none (g.alloc v) :: ms := by
  obtain ⟨id, hnew⟩ := newEntity_children L hv (k :: children) g
  obtain ⟨ms, hms⟩ := sent_adopting g.nextEntity children
    ((g.alloc v).moved k (some g.nextEntity) none none)
  have hrest : ((g.alloc v).adopting g.nextEntity (k :: children)).sent
      = g.sent ++ moveMessage k (some g.nextEntity) none none (g.alloc v) :: ms := by
    refine hms.trans ?_
    rw [sent_moved, List.append_assoc]
    rfl
  refine ⟨_, ms ++ [enrollMessage (.entity g.nextEntity) id
    ((g.alloc v).adopting g.nextEntity (k :: children))], hnew, ?_⟩
  rw [sent_enrolled, hrest, List.append_assoc]
  rfl

/-- **The move carries the entity, which has no id.** -/
theorem carried_moveMessage (hnew : g.rObjects.get (.entity g.nextEntity) = none)
    (hv : v.id = none) (k : ℕ) :
    ∃ p ∈ (moveMessage k (some g.nextEntity) none none (g.alloc v)).carried, p.2.id = none := by
  let g' := (g.alloc v).placed k (some g.nextEntity) none none
  have hcall : Packed.whole (.entity g.nextEntity)
      ∈ (movetoCall k (some g.nextEntity) none none (packed g'.known) : Call α).mentions := by
    have hwhole := packed_of_unknown (g := g') (o := .entity g.nextEntity) hnew
    exact List.mem_cons_of_mem _ (List.mem_singleton.mpr hwhole.symm)
  have hcarried : .entity g.nextEntity ∈ carried g' g'.known
      (movetoCall k (some g.nextEntity) none none (packed g'.known)) :=
    mem_carried (mem_made_entity.mpr (Nat.lt_succ_self g.nextEntity)) hcall
  refine ⟨_, List.mem_flatMap.mpr ⟨_, hcarried, List.mem_singleton.mpr rfl⟩, ?_⟩
  show ((g.alloc v).entities g.nextEntity).id = none
  rw [alloc_entities, if_pos rfl, hv]

end Server

namespace Client

open Server (Game Entity Obj Msg Sound newEntity snapshot)

variable {α : Type} {fits : Server.Kind → Server.Kind → Prop} {g : Game α} {v : Entity}
  {c : Model α}

/-! ## What a client makes of it -/

/-- **The mirror of `e` is the parent of the mirrors of these**, in order. -/
def Model.Adopted (g : Game α) (e : ℕ) (children : List ℕ) (c : Model α) : Prop :=
  ∃ id a, (g.entities e).id = some id ∧ c.objects.get id = some (.mirror a)
    ∧ List.Forall₂ (fun k r => ∃ i, (g.entities k).id = some i ∧ c.objects.get i = some r)
      children (c.heap a).children
    ∧ ∀ r ∈ (c.heap a).children, c.parentOf r = some (.mirror a)

/-- **An entity is made safely for a client**: whatever is broadcast mentions
objects with ids only, the client receives it, and has the entity as the
parent of its children then. -/
structure Safe (L : Dict.Length Obj) (g : Game α) (v : Entity) (children : List ℕ)
    (c : Model α) : Prop where
  /-- The entity is made, and the client is told. -/
  told : ∃ e g' news, newEntity L v children g = .ok e g' ∧ g'.sent = g.sent ++ news
    ∧ (∀ m ∈ news, ∀ p ∈ m.carried, p.2.id ≠ none)
    ∧ ∃ c', c.receiveAll news = .ok c' ∧ c'.Adopted g' e children

/-- **A client cannot receive the first child's move.** -/
theorem receive_moveMessage (hc : c.InGame)
    (hnew : g.rObjects.get (.entity g.nextEntity) = none) (hv : v.id = none) (k : ℕ)
    (c' : Model α) :
    c.receive (Server.moveMessage k (some g.nextEntity) none none (g.alloc v)) ≠ .ok c' := by
  intro h
  obtain ⟨p, hp, hid⟩ := Server.carried_moveMessage hnew hv k
  exact (Model.receive_eq_ok h).2.2.1 hc.loaded p hp hid

/-- **An entity with children is not made safely.** -/
theorem not_safe_of_children (L : Dict.Length Obj) (hc : c.InGame)
    (hnew : g.rObjects.get (.entity g.nextEntity) = none) (hv : v.id = none) (k : ℕ)
    (children : List ℕ) : ¬Safe L g v (k :: children) c := by
  rintro ⟨e, g', news, hrun, hsent, -, c', hreceived, -⟩
  obtain ⟨g'', ms, hrun', hsent'⟩ := Server.sent_of_children L hv k children g
  obtain ⟨rfl, rfl⟩ := Outcome.ok.inj (hrun.symm.trans hrun')
  rw [List.append_cancel_left (hsent.symm.trans hsent')] at hreceived
  obtain ⟨c₁, hfirst, -⟩ := Model.receiveAll_cons_eq_ok.mp hreceived
  exact receive_moveMessage hc hnew hv k c₁ hfirst

/-- **An entity without children is made safely.** -/
theorem safe_of_childless (L : Dict.Length Obj) (hc : c.InGame)
    (hnew : g.rObjects.get (.entity g.nextEntity) = none) (hv : v.Blank) : Safe L g v [] c := by
  let id := L.border g.objects + 1
  let w : Server.Ctor α := .entity v.kind (some id) v.name v.x v.y v.w v.h v.game [] v.count
  have hsent := Server.sent_enrolled (.entity g.nextEntity) id (g.alloc v)
  rw [Server.enrollMessage_childless hv.children hnew id] at hsent
  have hreceived := hc.receive_new (.entity g.nextEntity) (v := w) rfl rfl
  refine ⟨_, _, _, Server.newEntity_apply L hv.id g, hsent, ?_, c.gained _ id,
    (Model.receiveAll_singleton _ c).trans hreceived, id, c.next, ?_,
    Dict.get_set_self _ _ _, ?_, ?_⟩
  · intro m hm p hp
    rw [List.mem_singleton.mp hm] at hp
    rw [List.mem_singleton.mp hp]
    nofun
  · show ((g.created L v).entities g.nextEntity).id = some id
    rw [Server.created_self]
  · have hchildren :
        ((c.gained (Model.leaf (.entity g.nextEntity) w) id).heap c.next).children = [] := by
      show (Function.update c.heap c.next _ c.next).children = []
      rw [Function.update_self]
      rfl
    rw [hchildren]
    exact .nil
  · intro r hr
    change r ∈ (Function.update c.heap c.next _ c.next).children at hr
    rw [Function.update_self] at hr
    exact absurd hr List.not_mem_nil

/-- **An entity is made safely exactly when it is made without children**,
for every client in a game. -/
theorem safe_iff (L : Dict.Length Obj) (g : Game α) (hsound : Sound fits g) (v : Entity)
    (hv : v.Blank) (children : List ℕ) (c : Model α) (hc : c.InGame) :
    Safe L g v children c ↔ children = [] := by
  have hnew := Server.unknown_of_sound hsound
  constructor
  · intro hsafe
    cases children with
    | nil => rfl
    | cons k children => exact absurd hsafe (not_safe_of_children L hc hnew hv.id k children)
  · rintro rfl
    exact safe_of_childless L hc hnew hv

/-- The client that has received a game without objects. -/
def Model.emptyGame : Model α := Model.game .empty .empty .empty Model.fresh

theorem receive_emptyGame :
    Model.fresh.receive (snapshot (Game.empty : Game α)) = .ok Model.emptyGame := rfl

/-! ## A game with a stone in it -/

/-- A game in which one stone was made. -/
def stoneGame : Game (Box.Point Obj) :=
  Game.created (Dict.Length.first Obj) (Server.Kind.goPiece.entity (bytes "white stone")) Game.empty

/-- What a client is told of the stone. -/
def stoneCtor : Server.Ctor (Box.Point Obj) :=
  .entity .goPiece (some 1) (bytes "white stone") 0 0 23 23 (some (bytes "go")) [] .huge

/-- The client that was told of it. -/
def Model.stone : Model (Box.Point Obj) :=
  Model.emptyGame.gained (Model.leaf (.entity 0) stoneCtor) 1

theorem sound_stoneGame : Sound (fun _ _ => True) stoneGame :=
  (Server.sound_empty (fun _ _ => True)).created (Server.Kind.blank _ _)

/-- It was in the game before the stone was, and received everything. -/
theorem receiveAll_stone :
    Model.fresh.receiveAll (snapshot Game.empty :: stoneGame.sent) = .ok Model.stone := by
  have hsent : stoneGame.sent
      = [⟨.addObject (.known 0 .game) (.whole (.entity 0)), [(.entity 0, stoneCtor)]⟩] :=
    congrArg ([·]) (Server.enrollMessage_childless (g := Game.empty)
      (v := Server.Kind.goPiece.entity (bytes "white stone")) rfl rfl 1)
  refine Model.receiveAll_cons_eq_ok.mpr ⟨_, receive_emptyGame, ?_⟩
  rw [hsent, Model.receiveAll_singleton]
  exact Model.InGame.receive_new ⟨rfl, rfl⟩ (.entity 0) rfl rfl

/-- **A board is made next to the stone, or under it.** -/
theorem safe_iff_stone :
    Model.fresh.receiveAll (snapshot Game.empty :: stoneGame.sent) = .ok Model.stone
      ∧ stoneGame.Listed (.entity 0)
      ∧ (Safe (Dict.Length.first Obj) stoneGame (Server.Kind.goBoard.entity (bytes "goban")) []
          Model.stone ↔ ([] : List ℕ) = [])
      ∧ (Safe (Dict.Length.first Obj) stoneGame (Server.Kind.goBoard.entity (bytes "goban")) [0]
          Model.stone ↔ [0] = []) :=
  ⟨receiveAll_stone, (Server.created_listed _ _ Game.empty _).mpr (Or.inl rfl),
    safe_iff (Dict.Length.first Obj) stoneGame sound_stoneGame
      (Server.Kind.goBoard.entity (bytes "goban")) (Server.Kind.blank _ _) []
      Model.stone ⟨rfl, rfl⟩,
    safe_iff (Dict.Length.first Obj) stoneGame sound_stoneGame
      (Server.Kind.goBoard.entity (bytes "goban")) (Server.Kind.blank _ _) [0] Model.stone
      ⟨rfl, rfl⟩⟩

/-- **A board made with a stone on it** is not made safely: what is broadcast
first cannot be received by a client who has received everything before. -/
theorem not_safe : ∃ (g : Game (Box.Point Obj)) (c : Model (Box.Point Obj)),
    newEntity (Dict.Length.first Obj) (Server.Kind.goPiece.entity (bytes "white stone")) []
        Game.empty = .ok 0 g
      ∧ Model.fresh.receiveAll (snapshot Game.empty :: g.sent) = .ok c ∧ g.Listed (.entity 0)
      ∧ (∃ g' m news, newEntity (Dict.Length.first Obj) (Server.Kind.goBoard.entity (bytes "goban"))
          [0] g = .ok 1 g' ∧ g'.sent = g.sent ++ m :: news ∧ ∀ c', c.receive m ≠ .ok c')
      ∧ ¬Safe (Dict.Length.first Obj) g (Server.Kind.goBoard.entity (bytes "goban")) [0] c := by
  let L := Dict.Length.first Obj
  have hc : Model.stone.InGame := ⟨rfl, rfl⟩
  have hnew := Server.unknown_of_sound sound_stoneGame
  obtain ⟨g', news, hrun, hsent'⟩ := Server.sent_of_children L
    (v := Server.Kind.goBoard.entity (bytes "goban")) rfl 0 [] stoneGame
  exact ⟨stoneGame, Model.stone, Server.newEntity_apply L rfl Game.empty, receiveAll_stone,
    (Server.created_listed _ _ Game.empty _).mpr (Or.inl rfl),
    ⟨g', _, news, hrun, hsent', receive_moveMessage hc hnew rfl 0⟩,
    not_safe_of_children L hc hnew rfl 0 []⟩

end Client

end Felt
