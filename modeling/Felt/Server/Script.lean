import Felt.Lua.Triple
import Felt.Server.Change

/-!
# Game boxes are built by changes

The script of a game box makes a field, makes boards and bowls and puts them
on it, and puts pieces on a board. Each step is a change, none of them fails,
and what has been made stays where it is while the next things are made.

A script is followed line by line (`Building`), and what a line needs of the
lines before it is that the board or field they have made is still there and of
its kind (`Standing`). So the loops over files and ranks of a chess board go
through with one and the same assertion. Nothing is said here of where the pieces
are or how many there are; see `Felt.Server.Census` and `Felt.Server.Equipment`.

Which entity may be put on which is left to a `Policy`, of which `Hosts` is all
that the scripts ask.
-/

namespace Felt

namespace Server

variable {α : Type} {P : Policy} {L : Dict.Length Obj} {g₀ g : Game α}

/-- **What scripts rely on**: anything may stand on a field, and tokens on a
board. -/
structure Policy.Hosts (P : Policy) : Prop where
  /-- Anything else may stand on a field. -/
  field : ∀ k, k ≠ .field → P.fits k .field
  /-- Tokens may stand on a chessboard. -/
  chessBoard : ∀ k, k.isToken = true → P.fits k .chessBoard
  /-- Tokens may stand on a goban. -/
  goBoard : ∀ k, k.isToken = true → P.fits k .goBoard

/-- **A game that is being built**, from `g₀`. -/
structure Building (P : Policy) (L : Dict.Length Obj) (g₀ g : Game α) : Prop where
  /-- It has come to be by changes. -/
  chain : Chain P L g₀ g
  /-- It is sound. -/
  sound : Sound P.fits g
  /-- The ids that are free may be given out. -/
  free : ∀ k, g.objects.get k = none → P.fresh k
  /-- As many entities as there were, or more. -/
  grown : g₀.nextEntity ≤ g.nextEntity
  /-- Those there were are where they were. -/
  old : ∀ e, e < g₀.nextEntity → (g.entities e).parent = (g₀.entities e).parent
  /-- The players are as they were. -/
  people : g.people = g₀.people

/-- Where building begins. -/
theorem Building.start (h : Sound P.fits g) (hfree : ∀ k, g.objects.get k = none → P.fresh k) :
    Building P L g g :=
  ⟨.refl, h, hfree, le_rfl, fun _ _ => rfl, rfl⟩

/-- **`e` stands**, and is of the kind `k`. -/
structure Standing (P : Policy) (L : Dict.Length Obj) (g₀ : Game α) (k : Kind) (e : ℕ)
    (g : Game α) : Prop extends Building P L g₀ g where
  /-- It has an id. -/
  listed : g.Listed (.entity e)
  /-- It is of that kind. -/
  kind : (g.entities e).kind = k

section Spawn

variable {v : Entity} {p : ℕ} {x y : Option ℚ}

theorem created_free {k : ℕ} (h : (g.created L v).objects.get k = none) :
    g.objects.get k = none := by
  change (g.objects.set _ _).get k = none at h
  rw [Dict.get_set] at h
  split_ifs at h
  exact h

theorem spawned_listed {o : Obj} (h : g.Listed o) : (g.spawned L v p x y).Listed o :=
  (created_listed L v g o).mpr (Or.inr h)

theorem spawned_kind {e : ℕ} (h : e < g.nextEntity) :
    ((g.spawned L v p x y).entities e).kind = (g.entities e).kind := by
  show ((g.created L v).entities e).kind = _
  rw [created_of_ne L v h.ne]

/-- **An entity is made and put on another one.** -/
theorem Building.spawned (h : Building P L g₀ g) (hv : v.Blank) (hp : g.Listed (.entity p))
    (hfits : P.fits v.kind (g.entities p).kind) :
    Standing P L g₀ v.kind g.nextEntity (g.spawned L v p x y) where
  chain := h.chain.tail (.spawn hv hp hfits (h.free _ (objects_free L g)))
  sound := h.sound.spawned hv hp hfits
  free k hk := h.free k (created_free hk)
  grown := h.grown.trans (Nat.le_succ _)
  old e he := by
    have hlt := he.trans_le h.grown
    rw [← h.old e he]
    show (if e = g.nextEntity then some p else ((g.created L v).entities e).parent) = _
    rw [if_neg hlt.ne, created_of_ne L v hlt.ne]
  people := h.people
  listed := (created_listed L v g _).mpr (Or.inl rfl)
  kind := by
    show ((g.created L v).entities g.nextEntity).kind = _
    rw [created_self]

/-- What stands goes on standing. -/
theorem Standing.spawned {k : Kind} {e : ℕ} (h : Standing P L g₀ k e g) (hv : v.Blank)
    (hp : g.Listed (.entity p)) (hfits : P.fits v.kind (g.entities p).kind) :
    Standing P L g₀ k e (g.spawned L v p x y) where
  toBuilding := (h.toBuilding.spawned hv hp hfits).toBuilding
  listed := spawned_listed h.listed
  kind := by
    rw [spawned_kind (h.sound.entity e h.listed), h.kind]

/-- `p:add(new …, x, y)`. -/
theorem spawn_apply (hv : v.id = none) (g : Game α) :
    (newEntity L v [] >>= fun e => add p e x y) g = .ok () (g.spawned L v p x y) := by
  rw [Run.bind_of_ok (newEntity_apply L hv g)]
  exact moveto_apply _ _ _ _ _

/-- `p:add(new …, x, y)`, and what comes then. -/
theorem spawn_bind {β : Type} {f : ℕ → Action α β} {Q : β → Game α → Prop} (hv : v.id = none)
    (hf : Run.Returns (f g.nextEntity) (g.spawned L v p x y) Q) :
    Run.Returns (newEntity L v [] >>= fun e => add p e x y >>= fun _ => f e) g Q := by
  obtain ⟨b, g', hb, hQ⟩ := hf
  refine ⟨b, g', ?_, hQ⟩
  rw [Run.bind_of_ok (newEntity_apply L hv g)]
  exact (Run.bind_of_ok (moveto_apply _ _ _ _ _)).trans hb

end Spawn

/-! ## Fields -/

/-- **A field is there when it has been added.** -/
theorem addField_returns (h : Building P L g₀ g) (name : Bytes)
    (hfields : g.fields.get name = none → P.fields) :
    Run.Returns (addField L name) g (fun f => Standing P L g₀ .field f) := by
  refine Run.Returns.bind (M := fun f => Standing P L g₀ .field f) ?_ (fun f g' h' => ?_)
  · unfold findField
    refine Run.Returns.get_bind ?_
    rcases hf : g.fields.get name with _ | f
    · refine ⟨g.nextEntity, g.opened L name, ?_,
        ⟨⟨?_, h.sound.opened, ?_, h.grown.trans (Nat.le_succ _), fun e he => ?_, h.people⟩,
          ?_, ?_⟩⟩
      · show (newEntity L (Kind.field.entity name) [] >>= _) g = _
        rw [Run.bind_of_ok (newEntity_apply L rfl g)]
        rfl
      · exact h.chain.tail (.field (hfields hf) hf (h.free _ (objects_free L g)))
      · exact fun k hk => h.free k (created_free hk)
      · rw [← h.old e he]
        exact congrArg Entity.parent (created_of_ne L _ (he.trans_le h.grown).ne)
      · exact (created_listed L _ g _).mpr (Or.inl rfl)
      · show ((g.created L _).entities g.nextEntity).kind = _
        rw [created_self]
        rfl
    · obtain ⟨hlisted, hkind⟩ := h.sound.fields name f hf
      exact ⟨f, g, rfl, h, hlisted, hkind⟩
  · obtain ⟨id, hid⟩ := h'.listed
    have hsame := sameLinks_enrolled (h'.sound.id_of id _ hid) hid ((h'.sound.inverse id _).mp hid)
    refine ⟨f, g'.enrolled (.entity f) id, ?_, ⟨⟨h'.chain.tail (.again hid),
      h'.sound.enrolled_again hid, fun k hk => ?_, h'.grown.trans hsame.nextEntity.ge,
      fun e he => (hsame.parent e).trans (h'.old e he), h'.people⟩,
      (hsame.listed _).mpr h'.listed, ?_⟩⟩
    · rw [Run.bind_of_ok (addObject_again L (h'.sound.id_of id _ hid) hid)]
      rfl
    · rw [hsame.objects] at hk
      exact h'.free k hk
    · rw [hsame.kind]
      exact h'.kind

/-! ## The scripts -/

theorem addPiece_returns (hP : P.Hosts) {board : ℕ} {g : Game α}
    (h : Standing P L g₀ .chessBoard board g) (name : Bytes) (x y : ℚ) :
    Run.Returns (addPiece L board name x y) g (fun _ => Standing P L g₀ .chessBoard board) := by
  refine ⟨(), _, spawn_apply rfl g, h.spawned (Kind.blank _ _) h.listed ?_⟩
  rw [h.kind]
  exact hP.chessBoard _ rfl

theorem addPieces_returns (hP : P.Hosts) {board : ℕ} (colour : Bytes) (g : Game α)
    (h : Standing P L g₀ .chessBoard board g) :
    Run.Returns (addPieces L board colour) g (fun _ => Standing P L g₀ .chessBoard board) := by
  refine Run.Returns.bind (Run.Returns.forList (fun k s hs => addPiece_returns hP hs _ _ _) _ g h)
    (fun _ s hs => ?_)
  refine Run.Returns.bind (Run.Returns.forList (fun i s hs => ?_) _ s hs) (fun _ s hs => ?_)
  · exact (addPiece_returns hP hs _ _ _).bind (fun _ s hs =>
      (addPiece_returns hP hs _ _ _).bind (fun _ s hs => addPiece_returns hP hs _ _ _))
  · exact (addPiece_returns hP hs _ _ _).bind (fun _ s hs => addPiece_returns hP hs _ _ _)

/-- **The chess box can be opened.** -/
theorem openChess_returns (hP : P.Hosts) (h : Building P L g₀ g)
    (hfields : g.fields.get (bytes "Chess") = none → P.fields) :
    Run.Returns (openChess L) g (fun _ => Building P L g₀) := by
  refine (addField_returns h _ hfields).bind (fun field g' hf => spawn_bind rfl ?_)
  refine (Run.Returns.forList (fun colour s hs => addPieces_returns hP colour s hs) _ _ ?_).weaken
    (fun _ _ hs => hs.toBuilding)
  refine hf.toBuilding.spawned (Kind.blank _ _) hf.listed ?_
  rw [hf.kind]
  exact hP.field _ nofun

theorem bowl_blank (name stone : Bytes) (x y : ℚ) : (bowl name stone x y).Blank := by
  refine ⟨rfl, rfl, rfl, rfl, fun k n h => ?_⟩
  obtain ⟨rfl, -⟩ := Prod.mk.inj (Option.some.inj h)
  rfl

/-- **The go box can be opened.** -/
theorem openGo_returns (hP : P.Hosts) (h : Building P L g₀ g)
    (hfields : g.fields.get (bytes "Go") = none → P.fields) :
    Run.Returns (openGo L) g (fun _ => Building P L g₀) := by
  refine (addField_returns h _ hfields).bind (fun field g₁ h₁ => spawn_bind rfl ?_)
  have hfits : ∀ {s : Game α} {k : Kind}, Standing P L g₀ .field field s → k ≠ .field →
      P.fits k (s.entities field).kind := fun hs hk => by
    rw [hs.kind]
    exact hP.field _ hk
  have h₂ := h₁.spawned (x := some 0) (y := some 0) (Kind.blank .goBoard (bytes "goban")) h₁.listed
    (hfits h₁ nofun)
  refine spawn_bind rfl ?_
  have h₃ := h₂.spawned (x := none) (y := none)
    (bowl_blank (bytes "white bowl") (bytes "white stone") (-87) 0) h₂.listed (hfits h₂ nofun)
  refine ⟨(), _, spawn_apply rfl _, (h₃.toBuilding.spawned (bowl_blank _ _ _ _) h₃.listed
    (hfits h₃ nofun)).toBuilding⟩

/-- **A game box can be opened**, if it is one there is. -/
theorem openGame_ends (hP : P.Hosts) (h : Building P L g₀ g) (name : Bytes)
    (hfields : name ∉ g.loaded → name = bytes "chess" ∨ name = bytes "go" → P.fields) :
    Run.Ends (openGame L name) g (fun _ => Building P L g₀)
      (fun _ g' => g' = g ∧ name ≠ bytes "chess" ∧ name ≠ bytes "go") := by
  refine Run.Ends.get_bind ?_
  by_cases hloaded : name ∈ g.loaded
  · rw [if_pos hloaded]
    exact .pure h
  · rw [if_neg hloaded]
    refine Run.Ends.bind (M := fun _ => Building P L g₀) ?_ (fun _ g' h' => ?_)
    · unfold boxScript
      by_cases hchess : name = bytes "chess"
      · rw [if_pos hchess]
        exact .of_returns (openChess_returns hP h (fun _ => hfields hloaded (Or.inl hchess)))
      · rw [if_neg hchess]
        by_cases hgo : name = bytes "go"
        · rw [if_pos hgo]
          exact .of_returns (openGo_returns hP h (fun _ => hfields hloaded (Or.inr hgo)))
        · rw [if_neg hgo]
          exact .throw ⟨rfl, hchess, hgo⟩
    · exact .of_returns ⟨(), _, rfl, h'.chain.tail .load, h'.sound.change (.load (L := L)), h'.free,
        h'.grown, h'.old, h'.people⟩

/-! ## The first field -/

theorem addBox_returns (hP : P.Hosts) {field width : ℕ} (box : Bytes × ℕ) (g : Game α)
    (h : Standing P L g₀ .field field g) :
    Run.Returns (addBox L field width box) g (fun _ => Standing P L g₀ .field field) := by
  refine ⟨(), _, spawn_apply rfl g, h.spawned ⟨rfl, rfl, rfl, rfl, fun k n hk => ?_⟩ h.listed ?_⟩
  · change none = some (k, n) at hk
    cases hk
  · rw [h.kind]
    exact hP.field _ nofun

/-- **The first field can be made.** -/
theorem openGameboxes_returns (hP : P.Hosts) (h : Building P L g₀ g) (hfields : P.fields)
    (games : List Bytes) :
    Run.Returns (openGameboxes L games) g (fun _ => Building P L g₀) := by
  refine (addField_returns h _ (fun _ => hfields)).bind (fun field g' hf => ?_)
  exact (Run.Returns.forList (fun box s hs => addBox_returns hP box s hs) _ _ hf).weaken
    (fun _ _ hs => hs.toBuilding)

/-- Nothing is in no relation. -/
theorem sound_empty (fits : Kind → Kind → Prop) : Sound fits (Game.empty : Game α) where
  inverse _ _ := iff_of_false nofun nofun
  id_of _ _ h := by cases h
  pos := rfl
  entity _ h := by
    obtain ⟨_, h⟩ := h
    cases h
  player_iff _ := iff_of_false (fun h => by
    obtain ⟨_, h⟩ := h
    cases h) (Nat.not_lt_zero _)
  tree := ⟨fun _ _ => iff_of_false List.not_mem_nil nofun, fun _ => List.nodup_nil⟩
  parent _ _ h := by cases h
  hands := ⟨fun _ _ => iff_of_false nofun nofun, fun _ _ h => by cases h⟩
  held _ _ h := by cases h
  stock _ _ _ h := by cases h
  fields _ _ h := by cases h
  players _ _ h := by cases h

/-- **The game a server starts with is sound**, and is what changes make of
the empty one. -/
theorem start_sound (L : Dict.Length Obj) (games : List Bytes) (hP : P.Hosts) (hfields : P.fields)
    (hfresh : ∀ k, P.fresh k) :
    ∃ g : Game α, Building P L Game.empty g ∧ Game.start L games = { g with sent := [] } := by
  obtain ⟨_, g, hg, h⟩ := openGameboxes_returns hP
    (Building.start (g := (Game.empty : Game α)) (sound_empty _)
      (fun k _ => hfresh k)) hfields games
  refine ⟨g, h, ?_⟩
  unfold Game.start
  rw [hg]

end Server

end Felt
