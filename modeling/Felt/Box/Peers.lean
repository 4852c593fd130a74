import Felt.Box.RoundTrip

/-!
# Messages between peers

A client and a server each have their own tables of objects, and agree on ids.
An object the sender has listed goes by its id; one that is new goes as the
name of its type and a constructor; and one that has just recorded its id goes
by that. `unpack_pack_message` says what the receiver makes of all this: a
known object comes out as the receiver's own, and any other is rebuilt once,
from a constructor all of which was rebuilt before.

`Arrives` is stated in terms of images and an order. The image of a point is what
its occurrences have become, the same for all of them; the order is the one in
which points were finished, in which whatever a constructor is made of comes in
front of the object that is made from it. So sharing and cycles through tables
need no clause of their own, and neither does the order in which `__unpack`
functions run.
-/

namespace Felt

namespace Box

variable {α ω τ : Type} [DecidableEq α] [DecidableEq ω]

/-- **The receiver understands the sender**: what is sent is a message, there is
an object under every id the sender may use, and the types of the others can
be rebuilt. `held` are the tables of the message that the receiver's objects
have got hold of, in each state of its memory. -/
structure Understands (G : Graph α) (objs : α → Option ℕ) (R : Receiver ω τ)
    (store : Store ω τ) (ids : Set ℕ) (held : τ → Set ℕ) : Prop where
  /-- What is sent is a message. -/
  isMessage : IsMessage G (fun a => (objs a).isSome = true)
  /-- The ids of the objects the sender knows may be used. -/
  known : ∀ a id, objs a = some id → id ∈ ids
  /-- So may the ids that are recorded. -/
  recorded : ∀ a id, objs a = none → G a = .object (.pack (some id) (.ref a)) → id ∈ ids
  /-- The receiver has an object under each. -/
  entries : ∀ id ∈ ids, (R.entry store.world id).isSome = true
  /-- Its memory does not refer to tables that are not there. -/
  store : Encloses held store {i | i < store.tables.length}
  /-- It can rebuild what it is asked to. -/
  serves : ∀ a type ctor, objs a = none → G a = .object (.call (.string type) ctor) →
    R.Serves held ids type

section Understands

variable {G : Graph α} {objs : α → Option ℕ} {R : Receiver ω τ} {store : Store ω τ}
  {ids : Set ℕ} {held : τ → Set ℕ}

omit [DecidableEq α] [DecidableEq ω] in
/-- The exchange between a sender and a receiver that understands it. -/
def Understands.exchange (h : Understands G objs R store ids held) : Exchange α ω τ where
  graph := G
  known a := (objs a).isSome = true
  isMessage := h.isMessage
  receiver := R
  ids := ids
  recorded a id ha := h.recorded a id (by simpa using ha)
  peer := R.entry store.world
  peer_isSome := h.entries
  held := held
  serves a type ctor ha := h.serves a type ctor (by simpa using ha)

omit [DecidableEq α] in
theorem Understands.sim (h : Understands G objs R store ids held) :
    Sim h.exchange [] [] {i | i < store.tables.length} ⟨.initial, some objs⟩
      ⟨[], store, []⟩ := by
  refine Sim.initial h.exchange (fun a => ?_) h.known (fun _ _ => rfl) h.store
  show (objs a).isSome = true ↔ ∃ id ∈ ids, objs a = some id
  rw [Option.isSome_iff_exists]
  exact ⟨fun ⟨id, hid⟩ => ⟨id, h.known a id hid, hid⟩, fun ⟨id, _, hid⟩ => ⟨id, hid⟩⟩

end Understands

/-- **What the receiver has made of a message.** `φ` says what every point of
the message has become, at each of its occurrences: a known object, and one
that recorded its id, is the receiver's under that id; the others have been
rebuilt, each once, in the order of `order`. -/
structure Arrives (G : Graph α) (objs : α → Option ℕ) (R : Receiver ω τ) (store : Store ω τ)
    (v : Value α) (w : Value (Point ω)) (ust : UnpackState ω τ) (φ : α → Point ω)
    (order : List α) : Prop where
  /-- What was unpacked. -/
  value : w = decode φ v
  /-- An object that is known. -/
  known : ∀ a id, objs a = some id →
    ∃ o, R.entry store.world id = some o ∧ φ a = .object o
  /-- One that recorded its id. -/
  recorded : ∀ a id, Occurs G (fun a => (objs a).isSome = true) v (.ref a) → objs a = none →
    G a = .object (.pack (some id) (.ref a)) →
    ∃ o, R.entry store.world id = some o ∧ φ a = .object o
  /-- Nothing is rebuilt twice. -/
  nodup : order.Nodup
  /-- What is rebuilt. -/
  rebuilt : ∀ a, a ∈ order ↔ Occurs G (fun a => (objs a).isSome = true) v (.ref a)
    ∧ IsRebuilt G (fun a => (objs a).isSome = true) a
  /-- What from. -/
  history : List.Forall₂ (RebuiltAs G φ) order ust.history
  /-- No two points become one table. -/
  inj : ∀ a b i, a ∈ order → b ∈ order → φ a = .table i → φ b = .table i → a = b
  /-- What is below a constructor is rebuilt before. -/
  nested : ∀ before a after type ctor, order = before ++ a :: after →
    G a = .object (.call type ctor) → ∀ b,
    Occurs G (fun a => (objs a).isSome = true) ctor (.ref b) →
    IsRebuilt G (fun a => (objs a).isSome = true) b → b ∈ before

/-- **A message arrives**, unless the name of the encoder's counter is in it. -/
theorem exists_arrives [Fintype α] {G : Graph α} {objs : α → Option ℕ}
    {R : Receiver ω τ} {store : Store ω τ} {ids : Set ℕ} {held : τ → Set ℕ}
    (hunderstands : Understands G objs R store ids held) {v : Value α} (hv : v.Sendable)
    (hname : ¬ Occurs G (fun a => (objs a).isSome = true) v (.string (bytes "n"))) :
    ∃ fuel b st, pack G (some objs) fuel v = .ok b st ∧
      ∃ fuel' w ust, unpack .ideal R fuel' b store = .ok w ust ∧
        ∃ φ order, Arrives G objs R store v w ust φ order := by
  let X := hunderstands.exchange
  obtain ⟨fuel, b, st, hp, hext, hor⟩ :=
    X.roundTrip hunderstands.sim (fun _ _ _ _ => rfl) hv
  obtain ⟨-, fuel', w, ust, done, H, hu, hend, hw, hdone, -⟩ :=
    hor.resolve_right (fun h => hname h.1)
  -- an object that goes by its id is the receiver's under it
  have hpeer : ∀ a id, st.knownId (.ref a) = some id →
      ∃ o, R.entry store.world id = some o ∧ imageOf X.peer st ust a = .object o := by
    intro a id hid
    obtain ⟨o, ho⟩ := Option.isSome_iff_exists.mp
      (hunderstands.entries id (hend.knownId a id hid).2.1)
    exact ⟨o, ho, hend.imageOf_of_knownId hid ho⟩
  refine ⟨fuel, b, st, hp, fuel', w, ust, hu, imageOf X.peer st ust, done,
    { value := hend.decode_of_decodes hw
      known := fun a id ha => hpeer a id (hext.known a id ha)
      recorded := fun a id hocc ha hGa => ?_
      nodup := ?_
      rebuilt := hdone
      history := hend.history.imp (fun a event hr => hend.rebuiltAs hr)
      inj := fun a b i ha hb hai hbi => hend.eq_of_imageOf ha hb hai hbi
      nested := fun before a after type ctor ho hGa b hocc hb => ?_ }⟩
  -- what records its id is no table and no call object, so it was not rebuilt
  · obtain ⟨w', hw'⟩ := hend.decodes_of_occurs hocc hw (fun o ho => absurd ho List.not_mem_nil)
    cases hw' with
    | slot hs =>
      obtain ⟨event, -, hr⟩ := hend.rebuilt
        (((hend.marked a).mp (Sim.index_of_slotOf hs)).resolve_left List.not_mem_nil)
      cases hr with
      | table h _ _ => exact absurd (h.symm.trans hGa) (by simp)
      | call h _ _ _ => exact absurd (h.symm.trans hGa) (by simp)
    | @known _ id' o hid ho =>
      have hcell := (hend.knownId a id' hid).2.2.resolve_left (show ¬ (objs a).isSome = true by
        rw [ha]
        simp)
      obtain rfl : id' = id := by
        have := hcell.symm.trans hGa
        simpa using this
      exact hpeer a id' hid
  · have := hend.nodup
    rwa [List.nil_append] at this
  · refine hend.nested before a after ho type ctor hGa b hocc ?_
    refine Option.eq_none_iff_forall_ne_some.mpr (fun id hid => ?_)
    have hpack := (hend.knownId b id hid).2.2.resolve_left hb.1
    rcases hb.2 with ⟨t, h⟩ | ⟨type', ctor', h⟩
    · exact absurd (h.symm.trans hpack) (by simp)
    · exact absurd (h.symm.trans hpack) (by simp)

/-- **Objects survive.** A message is packed with a table of the objects the
receiver knows, and unpacked by a receiver that understands it. Unless the
string `"n"` is in it, neither side raises. `φ` says what every point of the
message has become, at each of its occurrences: a known object, and one that
recorded its id, is the receiver's under that id; the others have been
rebuilt, each once, in the order of `order` – a table got the images of its
pairs, and a call object is what `__unpack` answered for the image of its
constructor, after everything below the constructor had been rebuilt. -/
theorem unpack_pack_message [Fintype α] {G : Graph α} {objs : α → Option ℕ}
    {R : Receiver ω τ} {store : Store ω τ} {ids : Set ℕ} {held : τ → Set ℕ}
    (hunderstands : Understands G objs R store ids held) {v : Value α} (hv : v.Sendable)
    (hname : ¬ Occurs G (fun a => (objs a).isSome = true) v (.string (bytes "n"))) :
    ∃ fuel b st, pack G (some objs) fuel v = .ok b st ∧
      ∃ fuel' w ust, unpack .ideal R fuel' b store = .ok w ust ∧
        ∃ (φ : α → Point ω) (order : List α), w = decode φ v ∧
          (∀ a id, objs a = some id →
            ∃ o, R.entry store.world id = some o ∧ φ a = .object o) ∧
          (∀ a id, Occurs G (fun a => (objs a).isSome = true) v (.ref a) → objs a = none →
            G a = .object (.pack (some id) (.ref a)) →
            ∃ o, R.entry store.world id = some o ∧ φ a = .object o) ∧
          order.Nodup ∧
          (∀ a, a ∈ order ↔ Occurs G (fun a => (objs a).isSome = true) v (.ref a)
            ∧ IsRebuilt G (fun a => (objs a).isSome = true) a) ∧
          List.Forall₂ (RebuiltAs G φ) order ust.history ∧
          (∀ a b i, a ∈ order → b ∈ order → φ a = .table i → φ b = .table i → a = b) ∧
          ∀ before a after type ctor, order = before ++ a :: after →
            G a = .object (.call type ctor) → ∀ b,
            Occurs G (fun a => (objs a).isSome = true) ctor (.ref b) →
            IsRebuilt G (fun a => (objs a).isSome = true) b → b ∈ before := by
  obtain ⟨fuel, b, st, hp, fuel', w, ust, hu, φ, order, h⟩ :=
    exists_arrives hunderstands hv hname
  exact ⟨fuel, b, st, hp, fuel', w, ust, hu, φ, order, h.value, h.known, h.recorded, h.nodup,
    h.rebuilt, h.history, h.inj, h.nested⟩

/-- A message as the server sends it: a call on an object the client has, with
a new object in two places. The constructor of the new object names one that
goes by its id. -/
def setRequest : Graph (Fin 5)
  | 0 => .table
    { pairs := [(.string (bytes "self"), .ref 1), (.boolean true, .ref 2),
        (.boolean false, .ref 2)]
      nodup := by decide
      isKey := by decide
      value_ne_nil := by decide }
  | 1 => .object (.illegal [])
  | 2 => .object (.call (.string (bytes "game.felt.Object")) (.ref 3))
  | 3 => .table
    { pairs := [(.string (bytes "id"), .number (.ofInt 9)), (.string (bytes "parent"), .ref 4)]
      nodup := by decide
      isKey := by decide +kernel
      value_ne_nil := by decide }
  | 4 => .object (.pack (some 8) (.ref 4))

/-- The object the client has. -/
def setObjs : Fin 5 → Option ℕ
  | 1 => some 7
  | _ => none

/-- A client with two objects, and a module that makes a third and registers
it under its id. -/
def setClient : Receiver ℕ (Option ℕ) where
  objs := some (fun third n =>
    if n = .fin (7 : ℕ) then some 0 else if n = .fin (8 : ℕ) then some 1
    else if n = .fin (9 : ℕ) then third else none)
  require _ store :=
    (.ok (some (fun _ store => (.ok (.ref (.object 2)), { store with world := some 2 }))), store)
  border := (Receiver.plain ℕ Unit).border
  isBorder := (Receiver.plain ℕ Unit).isBorder

theorem isMessage_setRequest : IsMessage setRequest (fun a => (setObjs a).isSome = true) where
  cell a ha := by
    match a with
    | 0 => exact Or.inl ⟨_, rfl⟩
    | 1 => exact absurd rfl ha
    | 2 => exact Or.inr (Or.inl ⟨_, _, rfl⟩)
    | 3 => exact Or.inl ⟨_, rfl⟩
    | 4 => exact Or.inr (Or.inr ⟨_, rfl⟩)
  sendable := by
    have h : ∀ a, setObjs a = none → ∀ x ∈ (setRequest a).parts, x.Sendable := by
      decide +kernel
    exact fun a ha => h a (by simpa using ha)
  acyclic a type ctor ha h hocc := by
    -- below the constructor there is neither the object nor the request
    have hclosed : ∀ a, setObjs a = none → a ≠ 2 ∧ a ≠ 0 →
        ∀ x ∈ (setRequest a).parts, x ≠ .ref 2 ∧ x ≠ .ref 0 := by
      decide +kernel
    match a with
    | 0 => exact absurd h (by simp [setRequest])
    | 1 => exact absurd rfl ha
    | 2 =>
      obtain ⟨-, rfl⟩ : _ ∧ ctor = .ref 3 := by
        simpa [setRequest, eq_comm] using h
      refine absurd rfl (hocc.preserves (P := fun v => v ≠ .ref 2 ∧ v ≠ .ref 0)
        (fun b hb hbne x hx => ?_) (by simp)).1
      exact hclosed b (by simpa using hb) (by simpa using hbne) x hx
    | 3 => exact absurd h (by simp [setRequest])
    | 4 => exact absurd h (by simp [setRequest])

omit [DecidableEq ω] in
/-- Code that leaves the tables alone is confined, when the receiver holds
none. -/
theorem confined_of_tables_eq {β : Type} {f : Effect ω τ β}
    (h : ∀ store, (f store).2.tables = store.tables) (given : Set ℕ) :
    Confined (fun _ => ∅) f given := by
  intro store C hC _
  have hnew : newTables store (f store).2 = ∅ := by
    ext i
    simp only [newTables, h, Set.mem_ofPred_eq, Set.mem_empty_iff_false, iff_false]
    omega
  refine ⟨(congrArg List.length (h store)).ge, fun i _ _ => by rw [h], ?_⟩
  rw [hnew, Set.union_empty]
  exact ⟨fun i hi => by rw [h]; exact hC.lt i hi, fun i hi c hc => hC.closed i hi c (h store ▸ hc),
    Set.empty_subset _⟩

theorem serves_setClient (type : Bytes) :
    setClient.Serves (fun _ => ∅) {id | id = 7 ∨ id = 8} type where
  found store := by
    refine ⟨_, rfl, fun arg => ⟨confined_of_tables_eq (fun _ => rfl) _, fun store' id hid => ?_,
      fun store' => ⟨2, rfl⟩⟩⟩
    rcases hid with rfl | rfl <;> rfl
  confined := confined_of_tables_eq (fun _ => rfl) _
  keeps _ _ _ := rfl

/-- The new object is made once, from what stands for its constructor, and is
what both of its places hold. -/
theorem unpack_pack_message_setRequest :
    ∃ fuel b st, pack setRequest (some setObjs) fuel (.ref 0) = .ok b st ∧
      ∃ fuel' w ust, unpack .ideal setClient fuel' b ⟨[], none⟩ = .ok w ust ∧
        ∃ (φ : Fin 5 → Point ℕ) (order : List (Fin 5)), w = .ref (φ 0) ∧ φ 1 = .object 0
          ∧ φ 4 = .object 1 ∧ List.Forall₂ (RebuiltAs setRequest φ) order ust.history := by
  have hname : ¬ Occurs setRequest (fun a => (setObjs a).isSome = true) (.ref 0)
      (.string (bytes "n")) := fun h =>
    h.preserves (P := fun v => v ≠ .string (bytes "n"))
      (fun a _ _ => (by decide +kernel : ∀ a, ∀ x ∈ (setRequest a).parts,
        x ≠ .string (bytes "n")) a) (by simp) rfl
  have hids : ∀ a id, setObjs a = some id → id = 7 ∨ id = 8 := fun a id h => by
    match a with
    | 1 => exact Or.inl (Option.some.inj h).symm
  have hrec : ∀ a id, setObjs a = none → setRequest a = .object (.pack (some id) (.ref a)) →
      id = 7 ∨ id = 8 := fun a id _ h => by
    match a with
    | 4 => exact Or.inr (by simpa [setRequest, eq_comm] using h)
  have hunderstands : Understands setRequest setObjs setClient ⟨[], none⟩
      {id | id = 7 ∨ id = 8} (fun _ => ∅) :=
    { isMessage := isMessage_setRequest
      known := hids
      recorded := hrec
      entries := by rintro id (rfl | rfl) <;> rfl
      store := ⟨by simp, by simp, Set.empty_subset _⟩
      serves := fun _ _ _ _ _ => serves_setClient _ }
  obtain ⟨fuel, b, st, hp, fuel', w, ust, hu, φ, order, hw, hknown, hrecord, -, -, hhist, -, -⟩ :=
    unpack_pack_message hunderstands (v := .ref 0) trivial hname
  have hocc : Occurs setRequest (fun a => (setObjs a).isSome = true) (.ref 0) (.ref 4) := by
    refine .part (by decide) (x := .ref 2) (by decide) ?_
    refine .part (by decide) (x := .ref 3) (by decide) ?_
    exact .part (by decide) (x := .ref 4) (by decide) (.self _)
  obtain ⟨o₁, ho₁, hφ₁⟩ := hknown 1 7 rfl
  obtain ⟨o₄, ho₄, hφ₄⟩ := hrecord 4 8 hocc rfl rfl
  obtain rfl : 0 = o₁ := Option.some.inj ho₁
  obtain rfl : 1 = o₄ := Option.some.inj ho₄
  exact ⟨fuel, b, st, hp, fuel', w, ust, hu, φ, order, hw, hφ₁, hφ₄, hhist⟩

end Box

end Felt
