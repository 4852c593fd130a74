import Felt.Server.Lasting
import Felt.Server.Stock

/-!
# How much there is of everything

How many boards, pieces, bowls, boxes and fields there are is settled by which
boxes have been opened: the script of a box runs once, however often and by
whomever its box is opened, and what it makes is never deleted. Only the
stones come and go. A piece that is captured, dropped, or in the hand of
somebody who leaves is one of the thirty-two that there are
(`census_of_played`).

The counts are additive, so a script is counted line by line (`tally_spawned`,
`tally_addField`), and what it makes is the sum. That it runs once is in the
census itself, as a clause on which boxes have been loaded.
-/

namespace Felt

namespace Server

open Box (Point)

variable {α : Type} {L : Dict.Length Obj} {g g' g'' : Game α}

/-! ## Counting -/

/-- What has an id was made. -/
def Made (g : Game α) : Prop := ∀ e, g.Listed (.entity e) → e < g.nextEntity

/-- One entity of the kind. -/
def Kind.one (k k' : Kind) : ℕ := if k = k' then 1 else 0

/-- **`d k` entities of each kind `k` were made** on the way from `g` to
`g'`. -/
structure Tally (d : Kind → ℕ) (g g' : Game α) : Prop where
  /-- What has an id was made. -/
  made : Made g'
  /-- There are so many more. -/
  stock : ∀ k, g'.stock k = g.stock k + d k
  /-- The same boxes are open. -/
  loaded : g'.loaded = g.loaded
  /-- The fields are the same. -/
  fields : g'.fields = g.fields

theorem Tally.refl (h : Made g) : Tally (fun _ => 0) g g := ⟨h, fun _ => rfl, rfl, rfl⟩

theorem Tally.trans {d d' : Kind → ℕ} (h : Tally d g g') (h' : Tally d' g' g'') :
    Tally (fun k => d k + d' k) g g'' where
  made := h'.made
  stock k := by rw [h'.stock, h.stock, Nat.add_assoc]
  loaded := h'.loaded.trans h.loaded
  fields := h'.fields.trans h.fields

/-- The entities are the same, of the same kinds. -/
theorem stock_same (hobjects : ∀ id, g'.objects.get id = g.objects.get id)
    (hkind : ∀ e, (g'.entities e).kind = (g.entities e).kind) (k : Kind) :
    g'.stock k = g.stock k := by
  unfold Game.stock
  rw [isOf_congr hkind]
  exact Dict.countP_of_get _ hobjects

theorem Made.same (h : Made g) (hobjects : ∀ id, g'.objects.get id = g.objects.get id)
    (hnext : g'.nextEntity = g.nextEntity) : Made g' := by
  rintro e ⟨id, hid⟩
  rw [hnext]
  exact h e ⟨id, (hobjects id).symm.trans hid⟩

theorem Made.created (h : Made g) (v : Entity) : Made (g.created L v) := by
  intro e he
  rcases (created_listed L v g _).mp he with heq | hold
  · exact (Obj.entity.inj heq).le.trans_lt (Nat.lt_succ_self _)
  · exact (h e hold).trans (Nat.lt_succ_self _)

/-- **What is made and put on something** is one more of its kind. -/
theorem tally_spawned (v : Entity) (p : ℕ) (x y : Option ℚ) (h : Made g) :
    Tally v.kind.one g (g.spawned L v p x y) where
  made := (h.created v).same (fun _ => rfl) rfl
  stock k := by
    have hsame : (g.spawned L v p x y).stock k = (g.created L v).stock k :=
      stock_same (fun _ => rfl) (fun _ => rfl) k
    rw [hsame, stock_created h]
    rfl
  loaded := rfl
  fields := rfl

theorem tally_spawn {v : Entity} (hv : v.id = none) (p : ℕ) (x y : Option ℚ) (h : Made g) :
    Run.Returns (newEntity L v [] >>= fun e => add p e x y) g (fun _ => Tally v.kind.one g) :=
  ⟨(), _, spawn_apply hv g, tally_spawned v p x y h⟩

/-- A list of steps that make the same each. -/
theorem tally_forList {β : Type} {f : β → Action α Unit} {d : Kind → ℕ}
    (hf : ∀ a g, Made g → Run.Returns (f a) g (fun _ => Tally d g)) :
    ∀ (l : List β) (g : Game α), Made g →
      Run.Returns (Run.forList f l) g (fun _ => Tally (fun k => l.length * d k) g)
  | [], g, h => .pure (by simpa using Tally.refl h)
  | a :: l, g, h => by
    refine (hf a g h).bind (fun _ g₁ h₁ => ?_)
    refine (tally_forList hf l g₁ h₁.made).weaken (fun _ g₂ h₂ => ?_)
    refine { h₁.trans h₂ with stock := fun k => ?_ }
    rw [(h₁.trans h₂).stock, List.length_cons, Nat.succ_mul, Nat.add_comm (d k)]

/-- **A new field.** -/
theorem tally_addField {name : Bytes} (hname : g.fields.get name = none) (h : Made g) :
    Run.Returns (addField L name) g (fun f g' => Made g' ∧ g'.loaded = g.loaded
      ∧ g'.fields = g.fields.set name f
      ∧ ∀ k, g'.stock k = g.stock k + Kind.one .field k) := by
  have hfind : findField L name g = .ok g.nextEntity (g.opened L name) := by
    rw [findField, Run.get_bind, hname]
    show (newEntity L (Kind.field.entity name) [] >>= _) g = _
    rw [Run.bind_of_ok (newEntity_apply L rfl g)]
    rfl
  have hid : (g.opened L name).idOf (.entity g.nextEntity) = some (L.border g.objects + 1) :=
    congrArg Entity.id (created_self L (Kind.field.entity name) g)
  have hlisted : (g.opened L name).objects.get (L.border g.objects + 1)
      = some (.entity g.nextEntity) := Dict.get_set_self _ _ _
  have hobjects : ∀ id, ((g.opened L name).enrolled (.entity g.nextEntity)
      (L.border g.objects + 1)).objects.get id
        = (g.created L (Kind.field.entity name)).objects.get id :=
    Dict.get_set_again hlisted
  refine ⟨g.nextEntity, _, ?_, (h.created (Kind.field.entity name)).same hobjects rfl, rfl, rfl,
    fun k => ?_⟩
  · rw [addField, Run.bind_of_ok hfind, Run.bind_of_ok (addObject_again L hid hlisted)]
    rfl
  · rw [stock_same hobjects (fun e => ?_), stock_created h]
    · rfl
    · show ((Game.setId (.entity g.nextEntity) _ (g.opened L name)).entities e).kind = _
      rw [Game.setId, mapEntity_eq]
      refine changeAt_field Entity.kind ?_ _ _ _
      exact fun _ => rfl

/-! ## What the boxes make -/

/-- What the script of the chess box makes. -/
def chessSet : Kind → ℕ
  | .field => 1
  | .chessBoard => 1
  | .chessPiece => 32
  | _ => 0

/-- What the script of the go box makes. -/
def goSet : Kind → ℕ
  | .field => 1
  | .goBoard => 1
  | .pile => 2
  | _ => 0

/-- What a server starts with that has so many games. -/
def boxes (n : ℕ) : Kind → ℕ
  | .field => 1
  | .box => n
  | _ => 0

theorem tally_addPieces (board : ℕ) (colour : Bytes) (h : Made g) :
    Run.Returns (addPieces L board colour) g
      (fun _ => Tally (fun k => 16 * Kind.one .chessPiece k) g) := by
  have hpiece : ∀ {g : Game α} name x y, Made g → Run.Returns (addPiece L board name x y) g
      (fun _ => Tally (Kind.one .chessPiece) g) := fun _ _ _ hg => tally_spawn rfl board _ _ hg
  refine (tally_forList (fun k g hg => hpiece _ _ _ hg) _ _ h).bind (fun _ g₁ h₁ => ?_)
  refine (tally_forList (d := fun k => Kind.one .chessPiece k + Kind.one .chessPiece k
    + Kind.one .chessPiece k) (fun i g hg => ?_) _ _ h₁.made).bind (fun _ g₂ h₂ => ?_)
  · exact (hpiece _ _ _ hg).bind (fun _ s hs => (hpiece _ _ _ hs.made).bind (fun _ s' hs' =>
      (hpiece _ _ _ hs'.made).weaken (fun _ _ hs'' => (hs.trans hs').trans hs'')))
  · refine (hpiece _ _ _ h₂.made).bind (fun _ g₃ h₃ => (hpiece _ _ _ h₃.made).weaken
      (fun _ g₄ h₄ => ?_))
    have hall := ((h₁.trans h₂).trans h₃).trans h₄
    refine { hall with stock := fun k => ?_ }
    rw [hall.stock]
    simp only [List.length_range, List.length_cons, List.length_nil]
    ring

/-- **The chess box.** -/
theorem tally_openChess (hname : g.fields.get (bytes "Chess") = none) (h : Made g) :
    Run.Returns (openChess L) g (fun _ g' => Made g' ∧ g'.loaded = g.loaded
      ∧ (∀ n, n ≠ bytes "Chess" → g'.fields.get n = g.fields.get n)
      ∧ ∀ k, g'.stock k = g.stock k + chessSet k) := by
  refine (tally_addField hname h).bind (fun field g₁ h₁ => ?_)
  obtain ⟨hmade, hloaded, hfields, hstock⟩ := h₁
  refine spawn_bind rfl ?_
  have h₂ := tally_spawned (L := L) (Kind.chessBoard.entity (bytes "chessboard")) field (some 0)
    (some 0) hmade
  refine (tally_forList (fun colour g hg => tally_addPieces _ colour hg) _ _ h₂.made).weaken
    (fun _ g₃ h₃ => ?_)
  have hall := h₂.trans h₃
  refine ⟨hall.made, hall.loaded.trans hloaded, fun n hn => ?_, fun k => ?_⟩
  · rw [hall.fields, hfields, Dict.get_set_of_ne _ _ hn]
  · rw [hall.stock, hstock]
    cases k <;> rfl

/-- **The go box.** -/
theorem tally_openGo (hname : g.fields.get (bytes "Go") = none) (h : Made g) :
    Run.Returns (openGo L) g (fun _ g' => Made g' ∧ g'.loaded = g.loaded
      ∧ (∀ n, n ≠ bytes "Go" → g'.fields.get n = g.fields.get n)
      ∧ ∀ k, g'.stock k = g.stock k + goSet k) := by
  refine (tally_addField hname h).bind (fun field g₁ h₁ => ?_)
  obtain ⟨hmade, hloaded, hfields, hstock⟩ := h₁
  refine spawn_bind rfl ?_
  have h₂ := tally_spawned (L := L) (Kind.goBoard.entity (bytes "goban")) field (some 0) (some 0)
    hmade
  refine spawn_bind rfl ?_
  have h₃ := h₂.trans (tally_spawned (L := L)
    (bowl (bytes "white bowl") (bytes "white stone") (-87) 0)
    field none none h₂.made)
  refine (tally_spawn rfl field none none h₃.made).weaken (fun _ g₄ h₄ => ?_)
  have hall := h₃.trans h₄
  refine ⟨hall.made, hall.loaded.trans hloaded, fun n hn => ?_, fun k => ?_⟩
  · rw [hall.fields, hfields, Dict.get_set_of_ne _ _ hn]
  · rw [hall.stock, hstock]
    cases k <;> rfl

/-! ## The census -/

/-- **The census** of a server that started with `n` games. -/
structure Census (n : ℕ) (g : Game α) : Prop where
  /-- What has an id was made. -/
  made : Made g
  /-- How much there is of everything but stones. -/
  stock : ∀ k, k ≠ .goPiece → g.stock k = boxes n k
    + (if bytes "chess" ∈ g.loaded then chessSet k else 0)
    + (if bytes "go" ∈ g.loaded then goSet k else 0)
  /-- There is no field of a box that is not open. -/
  chess : bytes "chess" ∉ g.loaded → g.fields.get (bytes "Chess") = none
  /-- There is no field of a box that is not open. -/
  go : bytes "go" ∉ g.loaded → g.fields.get (bytes "Go") = none

section Census

variable {n : ℕ}

theorem Census.same (h : Census n g) (hobjects : ∀ id, g'.objects.get id = g.objects.get id)
    (hkind : ∀ e, (g'.entities e).kind = (g.entities e).kind)
    (hnext : g'.nextEntity = g.nextEntity) (hloaded : g'.loaded = g.loaded)
    (hfields : g'.fields = g.fields) : Census n g' where
  made := h.made.same hobjects hnext
  stock k hk := by rw [stock_same hobjects hkind, hloaded, h.stock k hk]
  chess hno := by rw [hfields, h.chess (hloaded ▸ hno)]
  go hno := by rw [hfields, h.go (hloaded ▸ hno)]

theorem Census.sameObjects (h : Census n g) (hs : SameObjects g g')
    (hloaded : g'.loaded = g.loaded) :
    Census n g' :=
  h.same hs.objects hs.kind hs.nextEntity hloaded hs.fields

/-- A stone is made. -/
theorem Census.stone (h : Census n g) (name : Bytes) :
    Census n (g.created L (Kind.goPiece.entity name)) where
  made := h.made.created _
  stock k hk := by
    rw [stock_created h.made, if_neg (fun hkind => hk hkind.symm), Nat.add_zero]
    exact h.stock k hk
  chess := h.chess
  go := h.go

/-- A stone is deleted. -/
theorem Census.deleted (h : Census n g) {e id : ℕ} (hid : g.objects.get id = some (.entity e))
    (hkind : (g.entities e).kind = .goPiece) : Census n (g.deleted e id) where
  made := by
    rintro i ⟨id', hi⟩
    change (g.objects.erase id).get id' = _ at hi
    rw [Dict.get_erase] at hi
    split_ifs at hi
    exact h.made i ⟨id', hi⟩
  stock k hk := by
    have hcount := stock_deleted (k := k) hid
    rw [hkind, if_neg (Ne.symm hk), Nat.add_zero] at hcount
    rw [← hcount]
    exact h.stock k hk
  chess := h.chess
  go := h.go

/-- **The census is steady.** -/
theorem steady_census (n : ℕ) : Steady L (Census (α := α) n) where
  said _ := .modify (fun _ h => h.same (fun _ => rfl) (fun _ => rfl) rfl rfl rfl)
  held _ _ _ h := h.same (fun _ => rfl) (fun _ => rfl) rfl rfl rfl
  heldBy g e who h := h.sameObjects (.mapEntity g e (f := fun v => { v with heldBy := who })
    (fun _ => rfl) (fun _ => rfl) (fun _ => rfl)) rfl
  moved g e p x y h := h.sameObjects (.moved g e (some p) x y) rfl
  count g e m h := h.sameObjects (.mapEntity g e (f := fun v => { v with count := v.count.add m })
    (fun _ => rfl) (fun _ => rfl) (fun _ => rfl)) rfl
  stone _ name h := h.stone name
  deleted _ _ _ hid hkind h := h.deleted hid hkind

/-- A new player gets an id. -/
theorem newPlayer_apply (name : Bytes) (r b c : Value α) (g : Game α) :
    newPlayer L name r b c g = .ok g.nextPlayer ((g.born ⟨name, none, none, r, b, c⟩).enrolled
      (.player g.nextPlayer) (L.border g.objects + 1)) := by
  have hid : (g.born ⟨name, none, none, r, b, c⟩).idOf (.player g.nextPlayer) = none := by
    show ((g.born ⟨name, none, none, r, b, c⟩).people g.nextPlayer).id = none
    rw [born_people, if_pos rfl]
  show (addObject L (.player g.nextPlayer) >>= _) (g.born ⟨name, none, none, r, b, c⟩) = _
  rw [Run.bind_of_ok (addObject_new L hid)]
  rfl

/-- **A player who comes** is no entity. -/
theorem census_addPlayer (name : Bytes) (r b c : Value α) :
    Run.Keeps (Census n) (addPlayer L name r b c : Action α ℕ) := by
  refine .bind (.get_bind (fun g => ?_)) (fun _ => .bind (.modify (fun _ h =>
    h.same (fun _ => rfl) (fun _ => rfl) rfl rfl rfl)) (fun _ => .pure _))
  cases g.players.get name with
  | some p =>
    exact .bind (.modify (fun _ h => h.same (fun _ => rfl) (fun _ => rfl) rfl rfl rfl))
      (fun _ => .pure _)
  | none =>
    refine .bind (fun g h => ?_) (fun _ => .bind (.modify (fun _ h =>
      h.same (fun _ => rfl) (fun _ => rfl) rfl rfl rfl)) (fun _ => .pure _))
    rw [newPlayer_apply]
    refine ⟨?_, fun k hk => ?_, h.chess, h.go⟩
    · rintro e ⟨id, hid⟩
      change (g.objects.set _ _).get id = _ at hid
      rw [Dict.get_set] at hid
      split_ifs at hid
      · cases hid
      · exact h.made e ⟨id, hid⟩
    · refine Eq.trans ?_ (h.stock k hk)
      exact Dict.countP_set _ (objects_free L g)

/-- The census when the script of a box has run. -/
theorem Census.opened {name : Bytes} {set : Kind → ℕ} (h : Census n g) (hmade : Made g')
    (hloaded : g'.loaded = g.loaded) (hstock : ∀ k, g'.stock k = g.stock k + set k)
    (hcount : ∀ k, (if bytes "chess" ∈ g.loaded ++ [name] then chessSet k else 0)
      + (if bytes "go" ∈ g.loaded ++ [name] then goSet k else 0)
      = (if bytes "chess" ∈ g.loaded then chessSet k else 0)
      + (if bytes "go" ∈ g.loaded then goSet k else 0) + set k)
    (hchess : bytes "chess" ∉ g.loaded ++ [name] → g'.fields.get (bytes "Chess") = none)
    (hgo : bytes "go" ∉ g.loaded ++ [name] → g'.fields.get (bytes "Go") = none) :
    Census n { g' with loaded := g'.loaded ++ [name] } where
  made := hmade
  stock k hk := by
    show g'.stock k = _ + (if _ ∈ g'.loaded ++ [name] then _ else _)
      + (if _ ∈ g'.loaded ++ [name] then _ else _)
    have h₁ := hcount k
    rw [hstock, h.stock k hk, hloaded]
    omega
  chess hno := hchess (hloaded ▸ hno)
  go hno := hgo (hloaded ▸ hno)

/-- **A box that is opened** makes what is in it, if it was not opened
before. -/
theorem census_openGame (name : Bytes) :
    Run.Keeps (Census n) (openGame L name : Action α Unit) := by
  refine Run.Ends.triple (fun g h => .get_bind ?_)
  show Run.Ends (if _ then _ else _ : Action α Unit) g _ _
  by_cases hloaded : name ∈ g.loaded
  · rw [if_pos hloaded]
    exact .pure h
  rw [if_neg hloaded]
  by_cases hchess : name = bytes "chess"
  · subst hchess
    refine .of_returns (.bind (tally_openChess (h.chess hloaded) h.made) (fun _ g' h' =>
      .modify ?_))
    obtain ⟨hmade, hl, hfields, hstock⟩ := h'
    refine h.opened hmade hl hstock (fun k => ?_) (fun hno => absurd (by simp) hno) (fun hno => ?_)
    · simp only [List.mem_append, hloaded, List.mem_singleton,
        show bytes "go" ≠ bytes "chess" by decide]
      simp [Nat.add_comm]
    · rw [hfields _ (by decide)]
      exact h.go (fun hmem => hno (List.mem_append_left _ hmem))
  by_cases hgo : name = bytes "go"
  · subst hgo
    refine .of_returns (.bind (tally_openGo (h.go hloaded) h.made) (fun _ g' h' => .modify ?_))
    obtain ⟨hmade, hl, hfields, hstock⟩ := h'
    refine h.opened hmade hl hstock (fun k => ?_) (fun hno => ?_) (fun hno => absurd (by simp) hno)
    · simp only [List.mem_append, hloaded, List.mem_singleton,
        show bytes "chess" ≠ bytes "go" by decide]
      simp
    · rw [hfields _ (by decide)]
      exact h.chess (fun hmem => hno (List.mem_append_left _ hmem))
  · refine Or.inr ⟨.moduleNotFound name, g, ?_, h⟩
    rw [Run.bind_of_error]
    rw [boxScript, if_neg hchess, if_neg hgo]
    rfl

theorem census_openBox (self : ℕ) :
    Run.Keeps (Census n) (GameBox.openBox L self : Action α Unit) := by
  have hmap : ∀ e (f : Entity → Entity), (∀ v, (f v).kind = v.kind) → (∀ v, (f v).item = v.item) →
      (∀ v, (f v).id = v.id) →
      Run.Keeps (Census n) (Run.modify (Game.mapEntity e f) : Action α Unit) :=
    fun e f hkind hitem hid =>
      .modify (fun g h => h.sameObjects (.mapEntity g e hkind hitem hid) rfl)
  refine .get_bind (fun g => ?_)
  show Run.Keeps _ (if _ then _ else _)
  split_ifs
  · exact .pure ()
  · exact .bind (.assertSome _ _) (fun name => .bind (census_openGame name) (fun _ =>
      .bind (hmap _ _ (fun _ => rfl) (fun _ => rfl) (fun _ => rfl)) (fun _ => .get_bind (fun _ =>
        .bind (.assertSome _ _) (fun _ =>
          .bind (hmap _ _ (fun _ => rfl) (fun _ => rfl) (fun _ => rfl)) (fun _ =>
            hmap _ _ (fun _ => rfl) (fun _ => rfl) (fun _ => rfl)))))))

/-- **The census of a server that starts.** -/
theorem census_start (games : List Bytes) : Census games.length (Game.start L games : Game α) := by
  have hmade : Made (Game.empty : Game α) := fun e he => by
    obtain ⟨id, hid⟩ := he
    cases hid
  have hopen : Run.Returns (openGameboxes L games) (Game.empty : Game α)
      (fun _ => Census games.length) := by
    refine (tally_addField (g := (Game.empty : Game α)) rfl hmade).bind (fun field g₁ h₁ => ?_)
    obtain ⟨hmade₁, hloaded, hfields, hstock⟩ := h₁
    refine (tally_forList (d := Kind.one .box) (fun box g hg => tally_spawn rfl _ _ _ hg) _ _
      hmade₁).weaken (fun _ g₂ h₂ => ?_)
    have hloaded₂ : g₂.loaded = [bytes "gameboxes"] := h₂.loaded.trans hloaded
    have hnone : ∀ n, n ≠ bytes "Game Boxes" → g₂.fields.get n = none := fun n hn => by
      rw [h₂.fields, hfields, Dict.get_set_of_ne _ _ hn]
      rfl
    refine ⟨h₂.made, fun k _ => ?_, fun _ => hnone _ (by decide), fun _ => hnone _ (by decide)⟩
    rw [h₂.stock, hstock, hloaded₂, if_neg (by decide), if_neg (by decide), List.length_zipIdx]
    cases k <;> simp [Kind.one, boxes, Game.stock, Game.empty, Dict.values, Dict.empty]
  obtain ⟨_, g, hg, h⟩ := hopen
  unfold Game.start
  rw [hg]
  exact h.same (fun _ => rfl) (fun _ => rfl) rfl rfl rfl

end Census

/-- **The census lasts.** -/
theorem lasting_census (S : Site) (fuel n : ℕ) : Lasting S fuel (Census n) :=
  (steady_census n).lasting (fun _ h => h.same (fun _ => rfl) (fun _ => rfl) rfl rfl rfl)
    census_addPlayer (fun _ _ _ hg => (census_openBox _).weaken (fun _ hs => hs ▸ hg)
      (fun _ _ hs => hs) (fun _ _ hs => hs))

/-- **How much there is of everything**: in every state that a run reaches,
whoever did what, there are a field and a box for each game the server started
with, and, if the chess box was opened, a field, a board and thirty-two pieces
– if the go box was, a field, a board and two bowls – and nothing else but
stones. -/
theorem census_of_played (S : Site) (fuel : ℕ) (games : List Bytes) (s : State (Point Obj))
    (hs : Played S fuel (fun _ _ => True) (State.opening S games) s) (k : Kind)
    (hk : k ≠ .goPiece) : s.game.stock k = boxes games.length k
      + (if bytes "chess" ∈ s.game.loaded then chessSet k else 0)
      + (if bytes "go" ∈ s.game.loaded then goSet k else 0) :=
  ((lasting_census S fuel games.length).played (census_start games) hs).stock k hk

/-- Both boxes are opened, and a piece is captured. -/
theorem census_of_played_chess : ∃ s : State (Point Obj), (s.game.people 0).held ≠ none
    ∧ s.game.stock .chessPiece = 32 := by
  obtain ⟨s, hs, hheld, hchess, hgo⟩ := exists_played (fun _ _ => True) Site.plain 5
    (State.opening Site.plain [bytes "chess"])
    [.session (.connect 0 (some [])),
      .session (.login 0 (.string (bytes "a")) .nil .nil .nil .nil),
      .act 0 1 .openBox none none, .act 0 4 .pickup none none,
      .act 0 20 .drop (some 0) (some 0)]
    (Q := fun s => (s.game.people 0).held ≠ none ∧ bytes "chess" ∈ s.game.loaded
      ∧ bytes "go" ∉ s.game.loaded) (by decide +kernel)
  refine ⟨s, hheld, ?_⟩
  rw [census_of_played Site.plain 5 [bytes "chess"] s hs .chessPiece nofun, if_pos hchess,
    if_neg hgo]
  rfl

end Server

end Felt
