import Felt.Box.Contents
import Felt.Box.Strings
import Felt.Lua.Significant

/-!
# Remote calls

A call is sent as a table: `method`, `self` when a method of an object is
meant, and the arguments at the positions from one on. The receiver hands
`table.unpack` of it to the method, which goes as far as `n` says, and as `#`
says where there is no `n` – and nobody who sends a message writes an `n`.

A position that holds `nil` is not in the table. What `#` answers then may be
any border, so that the arguments behind the first `nil` may be left out, and
with the border in front of it they are. `delivers_iff` says exactly which
argument lists arrive whatever the border is.

The way of an argument is this. The sender has it under a position, in a table
that `pairs` enumerates in any order. The table is packed and unpacked, and what
is under the position then is the image of the argument, as no other key has
become the same number (`IsCall.rawget_position`). What `table.unpack` answers are
the images at the positions up to a border, if there is room for them on the
stack. So the arguments arrive exactly if the border is behind the last of them,
whichever border it is.

Both dispatchers are given as they are in the source, over tables of any shape;
they are the same but for what they do without a `self`.
-/

namespace Felt

namespace Net

open Box

variable {α ω τ β : Type} [DecidableEq α] [DecidableEq ω] [DecidableEq β]

/-- The key of the `k + 1`-st position of a list. -/
def position (k : ℕ) : Value β := .number (.fin ((k + 1 : ℕ) : ℚ))

omit [DecidableEq β] in
theorem position_injective : Function.Injective (position (β := β)) := by
  intro i j h
  have : ((i + 1 : ℕ) : ℚ) = ((j + 1 : ℕ) : ℚ) := by simpa [position] using h
  have : i + 1 = j + 1 := by exact_mod_cast this
  omega

/-- **What `#` may answer** of a table with these contents. -/
structure IsLength (c : List (Value β × Value β)) (n : ℕ) : Prop where
  /-- There is something at the last position. -/
  last : ∀ k, n = k + 1 → rawget c (position k) ≠ .nil
  /-- There is nothing behind it. -/
  next : rawget c (position n) = .nil

/-- **An interpreter**: the conversion of a number to a C integer, and a choice
of a border for every table, however it came to have its contents. -/
structure Interpreter (β : Type) [DecidableEq β] where
  /-- `lua_number2integer`. -/
  number2integer : Number → ℤ
  /-- `#t`. -/
  length : List (Value β × Value β) → ℕ
  /-- It is a border. -/
  isLength : ∀ c, IsLength c (length c)

/-- What goes wrong between the message and the method. -/
inductive CallError where
  /-- `bad argument #3 to '_unpack' (number expected, …)`. -/
  | numberExpected
  /-- `too many results to unpack`. -/
  | tooManyResults
  deriving DecidableEq

/-- `LUAI_MAXCSTACK`: how many stack slots a C function may use. -/
def maxCStack : ℤ := 8000

/-- **`table.unpack(t)`**: `_unpack(t, 1, t.n or #t)`, which has three slots in
use when it asks for one for each result. -/
def unpackTable (L : Interpreter β) (c : List (Value β × Value β)) :
    Except CallError (List (Value β)) := do
  let n := rawget c (.string (bytes "n"))
  let last ← if n.truthy then
      match n.checkNumber with
      | some x => pure (L.number2integer x)
      | none => throw .numberExpected
    else pure (L.length c : ℤ)
  if last < 1 then pure []
  else if maxCStack < last + 3 then throw .tooManyResults
  else pure ((List.range last.toNat).map (fun k => rawget c (position k)))

/-- **A call of a method.** -/
structure Invocation (β : Type) where
  /-- The object, or `nil` for a function of the API. -/
  self : Value β
  /-- The name of the method. -/
  method : Value β
  /-- What it is called with. -/
  args : List (Value β)
  deriving DecidableEq

/-- What both sides do with a message: `leading` is what they pass before its
arguments. -/
def dispatch (leading : Value β → List (Value β)) (L : Interpreter β)
    (c : List (Value β × Value β)) : Except CallError (Invocation β) := do
  let self := rawget c (.string (bytes "self"))
  let args ← unpackTable L c
  pure ⟨self, rawget c (.string (bytes "method")), leading self ++ args⟩

/-- The server tells a method the player, and a function of its API the client. -/
def serverLeading (sender player self : Value β) : List (Value β) :=
  if self.truthy then [self, player] else [sender]

/-- The client passes nothing but the object. -/
def clientLeading (self : Value β) : List (Value β) := if self.truthy then [self] else []

/-- **`server.dispatch`.** -/
def serverDispatch (sender player : Value β) :
    Interpreter β → List (Value β × Value β) → Except CallError (Invocation β) :=
  dispatch (serverLeading sender player)

/-- **`DispatchMessage`** of the client. -/
def clientDispatch :
    Interpreter β → List (Value β × Value β) → Except CallError (Invocation β) :=
  dispatch clientLeading

/-! ## The table of a call -/

/-- **The table `{ self = self; method = m; a₁, …, aₙ }`**, in whatever order it
is enumerated. A table has no more positions than doubles can count. -/
structure IsCall (t : Table α) (obj : Value α) (method : Bytes) (args : List (Value α)) :
    Prop where
  /-- What is in it: no position that holds `nil`. -/
  mem : ∀ k v, (k, v) ∈ t.pairs ↔ v ≠ .nil ∧
    (k = .string (bytes "self") ∧ v = obj ∨ k = .string (bytes "method") ∧ v = .string method
      ∨ ∃ i, k = position i ∧ args[i]? = some v)
  /-- An object, or nothing. -/
  obj_eq : obj = .nil ∨ ∃ a, obj = .ref a
  /-- The positions. -/
  length_le : args.length ≤ 2 ^ 53

section CallTable

variable (obj : Value α) (method : Bytes) (args : List (Value α))

omit [DecidableEq α] in
theorem nodup_callKeys : ((((.string (bytes "self"), obj) : Value α × Value α)
    :: (.string (bytes "method"), .string method)
    :: args.zipIdx.map (fun p => (position p.2, p.1))).map Prod.fst).Nodup := by
  have hkeys : (args.zipIdx.map (fun p => ((position p.2, p.1) : Value α × Value α))).map Prod.fst
      = (List.range args.length).map position := by
    rw [List.range_eq_range', ← List.zipIdx_map_snd 0 args, List.map_map, List.map_map]
    rfl
  rw [List.map_cons, List.map_cons, hkeys, List.nodup_cons, List.nodup_cons]
  refine ⟨?_, ?_, List.nodup_range.map position_injective⟩
  · simp [position, show bytes "self" ≠ bytes "method" by decide]
  · simp [position]

/-- What a message is made with, in the order it is written down. -/
def callTable : Table α where
  pairs := (((.string (bytes "self"), obj) : Value α × Value α)
    :: (.string (bytes "method"), .string method)
    :: args.zipIdx.map (fun p => (position p.2, p.1))).filter (fun p => p.2 ≠ .nil)
  nodup := (nodup_callKeys obj method args).sublist (List.filter_sublist.map _)
  isKey p hp := by
    rcases List.mem_cons.mp (List.mem_filter.mp hp).1 with rfl | hp
    · trivial
    rcases List.mem_cons.mp hp with rfl | hp
    · trivial
    · obtain ⟨q, -, rfl⟩ := List.mem_map.mp hp
      trivial
  value_ne_nil p hp := by simpa using (List.mem_filter.mp hp).2

theorem isCall_callTable (hobj : obj = .nil ∨ ∃ a, obj = .ref a) (hargs : args.length ≤ 2 ^ 53) :
    IsCall (callTable obj method args) obj method args where
  mem k v := by
    have hzip : (k, v) ∈ args.zipIdx.map (fun p => ((position p.2, p.1) : Value α × Value α))
        ↔ ∃ i, k = position i ∧ args[i]? = some v := by
      constructor
      · intro h
        obtain ⟨⟨w, i⟩, hmem, heq⟩ := List.mem_map.mp h
        obtain ⟨rfl, rfl⟩ := Prod.mk.inj heq
        exact ⟨i, rfl, List.mem_zipIdx_iff_getElem?.mp hmem⟩
      · rintro ⟨i, rfl, hget⟩
        exact List.mem_map.mpr ⟨(v, i), List.mem_zipIdx_iff_getElem?.mpr hget, rfl⟩
    show (k, v) ∈ List.filter _ _ ↔ _
    rw [List.mem_filter, List.mem_cons, List.mem_cons, hzip, Prod.mk.injEq, Prod.mk.injEq,
      decide_eq_true_eq, and_comm]
  obj_eq := hobj
  length_le := hargs

/-- It is made of what it was made with. -/
theorem sendable_callTable (hobj : obj.Sendable)
    (hargs : ∀ x ∈ args, x.Sendable) : ∀ x ∈ (callTable obj method args).elements, x.Sendable := by
  intro x hx
  obtain ⟨p, hp, hxp⟩ := List.mem_flatMap.mp hx
  have hp := (List.mem_filter.mp hp).1
  rcases List.mem_cons.mp hp with rfl | hp
  · rcases List.mem_pair.mp hxp with rfl | rfl
    · trivial
    · exact hobj
  rcases List.mem_cons.mp hp with rfl | hp
  · rcases List.mem_pair.mp hxp with rfl | rfl <;> trivial
  · obtain ⟨⟨w, i⟩, hmem, rfl⟩ := List.mem_map.mp hp
    rcases List.mem_pair.mp hxp with rfl | rfl
    · trivial
    · exact hargs _ (List.mem_of_getElem? (List.mem_zipIdx_iff_getElem?.mp hmem))

end CallTable

/-- **The call is delivered**: the message is packed, unpacked, and whatever
border `#` picks the method is called with every argument in its place. What an
argument is on the other side is what `φ` says its points have become. -/
def Delivers (leading : Value (Point ω) → List (Value (Point ω))) (G : Graph α)
    (objs : α → Option ℕ) (R : Receiver ω τ) (store : Store ω τ) (root : α) (obj : Value α)
    (method : Bytes) (args : List (Value α)) : Prop :=
  ∃ fuel b st fuel' i ust φ order, pack G (some objs) fuel (.ref root) = .ok b st ∧
    unpack .ideal R fuel' b store = .ok (.ref (.table i)) ust ∧
    Arrives G objs R store (.ref root) (.ref (.table i)) ust φ order ∧
    ∀ L : Interpreter (Point ω), ∃ rest,
      dispatch leading L (ust.store.tables.getD i [])
        = .ok ⟨obj.map φ, .string method, leading (obj.map φ) ++ rest⟩ ∧
      ∀ k v, args[k]? = some v → rest.getD k .nil = v.map φ

/-- **An argument list that can be sent**: there is no `nil` before an argument
that is not `nil`, the arguments fit the stack, numbers read back as
themselves, and the name of the encoder's counter is nowhere in it. -/
structure CanSend (G : Graph α) (objs : α → Option ℕ) (root : α) (args : List (Value α)) :
    Prop where
  /-- What follows a `nil` is `nil`. -/
  noHole : ∀ (i j : ℕ) (v : Value α), i < j → args[i]? = some .nil → args[j]? = some v →
    v = .nil
  /-- The stack of `_unpack` has room. -/
  fits : ∀ (k : ℕ) (v : Value α), args[k]? = some v → v ≠ .nil → (k + 1 : ℕ) + 3 ≤ maxCStack
  /-- Numbers are written with all of their digits. -/
  exact : ∀ n : Number, .number n ∈ args → n.reread = n
  /-- The string `"n"` is not sent. -/
  nameless : ¬ Occurs G (fun a => (objs a).isSome = true) (.ref root) (.string (bytes "n"))

/-! ## Positions -/

/-- One of the positions up to the number of entries is free. -/
theorem exists_isLength (c : List (Value β × Value β)) :
    ∃ n ∈ List.range (c.length + 1), rawget c (position n) = .nil := by
  by_contra h
  have hmem : ∀ n ∈ List.range (c.length + 1), position n ∈ c.map Prod.fst := fun n hn =>
    mem_keys_of_rawget (fun hnil => h ⟨n, hn, hnil⟩)
  have hcard : ((List.range (c.length + 1)).map (position (β := β))).length
      ≤ (c.map Prod.fst).length := by
    refine (List.Nodup.subperm ?_ ?_).length_le
    · exact List.nodup_range.map position_injective
    · intro k hk
      obtain ⟨n, hn, rfl⟩ := List.mem_map.mp hk
      exact hmem n hn
  rw [List.length_map, List.length_map, List.length_range] at hcard
  omega

/-- A cast of a double to a 64-bit integer – towards zero, and to the smallest
one where it does not fit – and of that to its low half, an `int`. -/
def castInt : Number → ℤ
  | .fin q =>
    let n := if 0 ≤ q then ⌊q⌋ else ⌈q⌉
    if -2 ^ 63 ≤ n ∧ n < 2 ^ 63 then n.bmod (2 ^ 32) else 0
  | _ => 0

/-- The first position that holds nothing. -/
def firstFree (c : List (Value β × Value β)) : ℕ :=
  (List.range (c.length + 1)).findIdx (fun k => rawget c (position k) = .nil)

theorem rawget_firstFree (c : List (Value β × Value β)) :
    rawget c (position (firstFree c)) = .nil := by
  obtain ⟨n, hn, hnil⟩ := exists_isLength c
  have hlt : firstFree c < (List.range (c.length + 1)).length :=
    List.findIdx_lt_length_of_exists ⟨n, hn, decide_eq_true hnil⟩
  have h : rawget c (position (List.range (c.length + 1))[firstFree c]) = .nil :=
    of_decide_eq_true (List.findIdx_getElem (w := hlt))
  rwa [List.getElem_range] at h

theorem rawget_of_lt_firstFree {c : List (Value β × Value β)} {k : ℕ} (hk : k < firstFree c) :
    rawget c (position k) ≠ .nil := by
  have h := List.not_of_lt_findIdx hk
  rw [List.getElem_range] at h
  simpa using h

/-- The interpreter that stops at the first position that holds nothing. -/
def Interpreter.first (β : Type) [DecidableEq β] : Interpreter β where
  number2integer := castInt
  length c := firstFree c
  isLength c := ⟨fun k hk => rawget_of_lt_firstFree (by omega), rawget_firstFree c⟩

/-! ## Unpacking the arguments -/

theorem unpackTable_of_fits (L : Interpreter β) {c : List (Value β × Value β)}
    (hn : rawget c (.string (bytes "n")) = .nil) (hfits : (L.length c : ℤ) + 3 ≤ maxCStack) :
    unpackTable L c = .ok ((List.range (L.length c)).map (fun k => rawget c (position k))) := by
  unfold unpackTable
  simp only [hn, Value.truthy, Bool.false_eq_true, if_false]
  show (if (L.length c : ℤ) < 1 then _ else _) = _
  split
  · next h =>
    rw [show L.length c = 0 from by omega]
    rfl
  · rw [if_neg (by omega)]
    rfl

/-- **Without an `n` all of the arguments up to the border are passed**, or there
are too many. -/
theorem eq_of_unpackTable {L : Interpreter β} {c : List (Value β × Value β)}
    (hn : rawget c (.string (bytes "n")) = .nil) {args : List (Value β)}
    (h : unpackTable L c = .ok args) :
    args = (List.range (L.length c)).map (fun k => rawget c (position k))
      ∧ (0 < L.length c → (L.length c : ℤ) + 3 ≤ maxCStack) := by
  unfold unpackTable at h
  simp only [hn, Value.truthy, Bool.false_eq_true, if_false] at h
  replace h : (if (L.length c : ℤ) < 1 then Except.ok [] else if maxCStack < (L.length c : ℤ) + 3
    then Except.error CallError.tooManyResults
    else Except.ok ((List.range (L.length c : ℤ).toNat).map (fun k => rawget c (position k))))
    = Except.ok args := h
  split at h
  · next hlt =>
    rw [show L.length c = 0 from by omega]
    exact ⟨(Except.ok.inj h).symm, fun h0 => absurd h0 (lt_irrefl 0)⟩
  · split at h
    · exact absurd h (by simp)
    · exact ⟨(Except.ok.inj h).symm, fun _ => by omega⟩

theorem dispatch_eq_ok {leading : Value β → List (Value β)} {L : Interpreter β}
    {c : List (Value β × Value β)} {inv : Invocation β} :
    dispatch leading L c = .ok inv ↔ ∃ args, unpackTable L c = .ok args ∧
      inv = ⟨rawget c (.string (bytes "self")), rawget c (.string (bytes "method")),
        leading (rawget c (.string (bytes "self"))) ++ args⟩ := by
  unfold dispatch
  cases unpackTable L c with
  | error e => simp [bind, Except.bind]
  | ok args => simp [bind, Except.bind, pure, Except.pure, eq_comm]

/-! ## What arrives of the table of a call -/

/-- What the receiver's table has for a sender's. -/
def received (φ : α → Point ω) (t : Table α) : List (Value (Point ω) × Value (Point ω)) :=
  fromPairs (t.pairs.map (fun p => (decode φ p.1, decode φ p.2)))

omit [DecidableEq α] in
/-- A key of the receiver's table comes from one of the sender's. -/
theorem rawget_received (φ : α → Point ω) (t : Table α) (k : Value (Point ω)) :
    ((∀ p ∈ t.pairs, decode φ p.1 ≠ k) ∧ rawget (received φ t) k = .nil)
      ∨ ∃ p ∈ t.pairs, decode φ p.1 = k ∧ rawget (received φ t) k = decode φ p.2 := by
  have hv : ∀ q ∈ t.pairs.map (fun p => (decode φ p.1, decode φ p.2)), q.2 ≠ .nil := by
    intro q hq
    obtain ⟨p, hp, rfl⟩ := List.mem_map.mp hq
    exact decode_ne_nil φ (t.value_ne_nil p hp)
  rcases rawget_fromPairs hv k with ⟨hnot, hnil⟩ | hmem
  · refine Or.inl ⟨fun p hp hk => hnot ?_, hnil⟩
    exact List.mem_map.mpr ⟨_, List.mem_map.mpr ⟨p, hp, rfl⟩, hk⟩
  · obtain ⟨p, hp, heq⟩ := List.mem_map.mp hmem
    obtain ⟨hk, hval⟩ := Prod.mk.inj heq
    exact Or.inr ⟨p, hp, hk, hval.symm⟩

omit [DecidableEq α] [DecidableEq ω] in
theorem decode_eq_string {φ : α → Point ω} {v : Value α} {s : Bytes}
    (h : decode φ v = .string s) : v = .string s := by
  cases v <;> simp_all [decode]

omit [DecidableEq α] [DecidableEq ω] in
theorem decode_position (φ : α → Point ω) {i : ℕ} (hi : i + 1 ≤ 2 ^ 53) :
    decode φ (position i) = .number (.fin (significant (i + 1 : ℕ))) := by
  have habs : |((i + 1 : ℕ) : ℤ)| ≤ 2 ^ 53 := by
    rw [Nat.abs_cast]
    exact_mod_cast hi
  have := Number.reread_ofInt habs
  rw [Number.ofInt_of_le habs, Int.cast_natCast] at this
  exact congrArg Value.number this

section IsCall

variable {t : Table α} {obj : Value α} {method : Bytes} {args : List (Value α)}
  (ht : IsCall t obj method args) (φ : α → Point ω)

include ht

omit [DecidableEq α] [DecidableEq ω] in
/-- The key of an argument is not a string. -/
theorem IsCall.eq_of_string {p : Value α × Value α} (hp : p ∈ t.pairs) {s : Bytes}
    (hk : p.1 = .string s) : (s = bytes "self" ∧ p.2 = obj)
      ∨ (s = bytes "method" ∧ p.2 = .string method) := by
  obtain ⟨-, h | h | ⟨i, hi, -⟩⟩ := (ht.mem p.1 p.2).mp hp
  · exact Or.inl ⟨Value.string.inj (hk.symm.trans h.1), h.2⟩
  · exact Or.inr ⟨Value.string.inj (hk.symm.trans h.1), h.2⟩
  · exact absurd (hk.symm.trans hi) (by simp [position])

omit [DecidableEq α] in
theorem IsCall.rawget_self : rawget (received φ t) (.string (bytes "self")) = obj.map φ := by
  have hmap : decode φ obj = obj.map φ := by
    rcases ht.obj_eq with rfl | ⟨a, rfl⟩ <;> rfl
  rcases rawget_received φ t (.string (bytes "self")) with ⟨hnot, hnil⟩ | ⟨p, hp, hk, hval⟩
  · rw [hnil]
    rcases ht.obj_eq with rfl | ⟨a, rfl⟩
    · rfl
    · exact absurd rfl (hnot _ ((ht.mem (.string (bytes "self")) (.ref a)).mpr
        ⟨by simp, Or.inl ⟨rfl, rfl⟩⟩))
  · rcases ht.eq_of_string hp (decode_eq_string hk) with ⟨-, h⟩ | ⟨h, -⟩
    · rw [hval, h, hmap]
    · exact absurd h (by decide)

omit [DecidableEq α] in
theorem IsCall.rawget_method :
    rawget (received φ t) (.string (bytes "method")) = .string method := by
  rcases rawget_received φ t (.string (bytes "method")) with ⟨hnot, -⟩ | ⟨p, hp, hk, hval⟩
  · exact absurd rfl (hnot _ ((ht.mem (.string (bytes "method")) (.string method)).mpr
      ⟨by simp, Or.inr (Or.inl ⟨rfl, rfl⟩)⟩))
  · rcases ht.eq_of_string hp (decode_eq_string hk) with ⟨h, -⟩ | ⟨-, h⟩
    · exact absurd h (by decide)
    · rw [hval, h]
      rfl

omit [DecidableEq α] in
/-- **Nobody has written an `n`.** -/
theorem IsCall.rawget_n : rawget (received φ t) (.string (bytes "n")) = .nil := by
  rcases rawget_received φ t (.string (bytes "n")) with ⟨-, hnil⟩ | ⟨p, hp, hk, -⟩
  · exact hnil
  · rcases ht.eq_of_string hp (decode_eq_string hk) with ⟨h, -⟩ | ⟨h, -⟩ <;>
      exact absurd h (by decide)

omit [DecidableEq α] [DecidableEq ω] in
/-- **No argument gets into the place of another**, within the room there is on
the stack: to be taken for a small number, a position has to be that number. -/
theorem IsCall.eq_of_position {p : Value α × Value α} (hp : p ∈ t.pairs) {k : ℕ}
    (hk : (k + 1 : ℕ) + 3 ≤ maxCStack) (hkey : decode φ p.1 = position k) :
    args[k]? = some p.2 := by
  obtain ⟨-, h | h | ⟨i, hi, hget⟩⟩ := (ht.mem p.1 p.2).mp hp
  · rw [h.1] at hkey
    exact absurd hkey (by simp [decode, position])
  · rw [h.1] at hkey
    exact absurd hkey (by simp [decode, position])
  · have hlt : i < args.length := (List.getElem?_eq_some_iff.mp hget).1
    rw [hi, decode_position φ (by have := ht.length_le; omega), position, Value.number.injEq,
      Number.fin.injEq] at hkey
    have hsig : significant (i + 1 : ℕ) = (k + 1 : ℕ) := by exact_mod_cast hkey
    have hhalf := abs_le_two_mul_abs_significant ((i + 1 : ℕ) : ℤ)
    rw [hsig, Nat.abs_cast, Nat.abs_cast] at hhalf
    rw [maxCStack] at hk
    rw [significant_of_lt (by rw [Nat.abs_cast]; omega)] at hsig
    obtain rfl : i = k := by omega
    exact hget

omit [DecidableEq α] in
/-- **What is at one of the positions there is room for**: the image of the
argument, or nothing where there is none. -/
theorem IsCall.rawget_position {k : ℕ} (hk : (k + 1 : ℕ) + 3 ≤ maxCStack) :
    rawget (received φ t) (position k) = decode φ (args.getD k .nil) := by
  have hkey : decode φ (position k) = position k := by
    rw [maxCStack] at hk
    rw [decode_position φ (by omega), significant_of_lt (by rw [Nat.abs_cast]; omega)]
    rfl
  rcases rawget_received φ t (position k) with ⟨hnot, hnil⟩ | ⟨p, hp, hpk, hval⟩
  · rw [hnil, List.getD_eq_getElem?_getD]
    rcases hget : args[k]? with _ | v
    · rfl
    · by_cases hv : v = .nil
      · rw [hv]
        rfl
      · exact absurd hkey (hnot _ ((ht.mem (position k) v).mpr
          ⟨hv, Or.inr (Or.inr ⟨k, rfl, hget⟩)⟩))
  · rw [hval, List.getD_eq_getElem?_getD, ht.eq_of_position φ hp hk hpk, Option.getD_some]

end IsCall

/-! ## The argument lists that arrive -/

section Delivers

variable {G : Graph α} {objs : α → Option ℕ} {R : Receiver ω τ} {store : Store ω τ}
  {root : α} {t : Table α} {obj : Value α} {method : Bytes} {args : List (Value α)}

omit [DecidableEq α] [DecidableEq ω] in
/-- A number that reads back as itself arrives as itself. -/
theorem CanSend.decode_eq (h : CanSend G objs root args) (φ : α → Point ω) {v : Value α}
    (hv : v ∈ args) : decode φ v = v.map φ := by
  cases v with
  | number n => exact congrArg Value.number (h.exact n hv)
  | _ => rfl

omit [DecidableEq α] in
/-- **The positions that hold something** are those of the arguments that are
not `nil`. -/
theorem CanSend.rawget_ne_nil_iff (h : CanSend G objs root args) (ht : IsCall t obj method args)
    (φ : α → Point ω) (k : ℕ) :
    rawget (received φ t) (position k) ≠ .nil ↔ args.getD k .nil ≠ .nil := by
  constructor
  · intro hk
    rcases rawget_received φ t (position k) with ⟨-, hnil⟩ | ⟨p, hp, hkey, -⟩
    · exact absurd hnil hk
    · obtain ⟨hv, hor | hor | ⟨i, hi, hget⟩⟩ := (ht.mem p.1 p.2).mp hp
      · rw [hor.1] at hkey
        exact absurd hkey (by simp [decode, position])
      · rw [hor.1] at hkey
        exact absurd hkey (by simp [decode, position])
      · have hfits := h.fits i p.2 hget hv
        rw [maxCStack] at hfits
        rw [hi, decode_position φ (by omega), significant_of_lt (by rw [Nat.abs_cast]; omega)]
          at hkey
        obtain rfl : i = k := position_injective (β := Point ω) hkey
        rw [List.getD_eq_getElem?_getD, hget]
        exact hv
  · intro hv
    have hget : args[k]? = some (args.getD k .nil) := by
      rw [List.getD_eq_getElem?_getD] at hv ⊢
      rcases hk : args[k]? with _ | v
      · exact absurd (by rw [hk]; rfl) hv
      · rfl
    rw [ht.rawget_position φ (h.fits k _ hget hv)]
    exact decode_ne_nil φ hv

omit [DecidableEq α] in
/-- **There is one border**, behind the last argument that is not `nil`. -/
theorem CanSend.lt_length_iff (h : CanSend G objs root args) (ht : IsCall t obj method args)
    (φ : α → Point ω) (L : Interpreter (Point ω)) (k : ℕ) :
    k < L.length (received φ t) ↔ args.getD k .nil ≠ .nil := by
  have hlength := L.isLength (received φ t)
  have hhas := h.rawget_ne_nil_iff ht φ
  -- what stands before an argument is one
  have hdown : ∀ {i j}, i < j → args.getD j .nil ≠ .nil → args.getD i .nil ≠ .nil := by
    intro i j hij hj hi
    rw [List.getD_eq_getElem?_getD] at hi hj
    rcases hgetj : args[j]? with _ | v
    · exact hj (by rw [hgetj]; rfl)
    · have hlt : j < args.length := (List.getElem?_eq_some_iff.mp hgetj).1
      rw [List.getElem?_eq_getElem (hij.trans hlt), Option.getD_some] at hi
      refine hj ?_
      rw [hgetj, Option.getD_some]
      exact h.noHole i j v hij (by rw [List.getElem?_eq_getElem (hij.trans hlt), hi]) hgetj
  constructor
  · intro hk
    obtain ⟨m, hm⟩ : ∃ m, L.length (received φ t) = m + 1 :=
      ⟨L.length (received φ t) - 1, by omega⟩
    have hlast := (hhas m).mp (hlength.last m hm)
    rcases Nat.lt_or_ge k m with hlt | hge
    · exact hdown hlt hlast
    · rwa [show k = m from by omega]
  · intro hk
    by_contra hge
    have hfree : args.getD (L.length (received φ t)) .nil = .nil := by
      by_contra hne
      exact (hhas _).mpr hne hlength.next
    rcases Nat.lt_or_ge (L.length (received φ t)) k with hlt | hle
    · exact hdown hlt hk hfree
    · rw [show k = L.length (received φ t) from by omega] at hk
      exact hk hfree

omit [DecidableEq α] in
/-- The table of such a call is unpacked, whatever the border. -/
theorem CanSend.exists_rest (h : CanSend G objs root args) (ht : IsCall t obj method args)
    (φ : α → Point ω) (L : Interpreter (Point ω)) : ∃ rest,
      unpackTable L (received φ t) = .ok rest ∧ rest.length = L.length (received φ t) ∧
      ∀ k v, args[k]? = some v → rest.getD k .nil = v.map φ := by
  have hlt := h.lt_length_iff ht φ L
  have hget : ∀ {k v}, args[k]? = some v → args.getD k .nil = v := fun hk => by
    rw [List.getD_eq_getElem?_getD, hk, Option.getD_some]
  have hroom : ∀ k, k < L.length (received φ t) → ((k + 1 : ℕ) : ℤ) + 3 ≤ maxCStack := by
    intro k hk
    have hv := (hlt k).mp hk
    rcases hargs : args[k]? with _ | v
    · rw [List.getD_eq_getElem?_getD, hargs] at hv
      exact absurd rfl hv
    · exact h.fits k v hargs (hget hargs ▸ hv)
  refine ⟨_, unpackTable_of_fits L (ht.rawget_n φ) ?_, by simp, fun k v hv => ?_⟩
  · rcases Nat.eq_zero_or_pos (L.length (received φ t)) with h0 | hpos
    · rw [h0, maxCStack]
      omega
    · have := hroom (L.length (received φ t) - 1) (by omega)
      rw [Nat.sub_add_cancel hpos] at this
      exact this
  · by_cases hk : k < L.length (received φ t)
    · rw [List.getD_eq_getElem?_getD, List.getElem?_map, List.getElem?_range hk, Option.map_some,
        Option.getD_some, ht.rawget_position φ (hroom k hk), hget hv]
      exact h.decode_eq φ (List.mem_of_getElem? hv)
    · have hnil : v = .nil := by
        by_contra hne
        exact hk ((hlt k).mpr (by rw [hget hv]; exact hne))
      rw [List.getD_eq_getElem?_getD, List.getElem?_eq_none (by simpa using hk), hnil]
      rfl

omit [DecidableEq α] in
/-- Arguments none of which is `nil` arrive as they are. -/
theorem CanSend.unpackTable_eq (h : CanSend G objs root args) (ht : IsCall t obj method args)
    (hargs : .nil ∉ args) (φ : α → Point ω) (L : Interpreter (Point ω)) :
    unpackTable L (received φ t) = .ok (args.map (Value.map φ)) := by
  obtain ⟨rest, hrest, hlength, hat⟩ := h.exists_rest ht φ L
  have hlt := h.lt_length_iff ht φ L
  rw [← hlength] at hlt
  rw [hrest]
  have hcount : rest.length = args.length := by
    rcases lt_trichotomy rest.length args.length with hl | hl | hl
    · refine absurd ((hlt rest.length).mpr ?_) (lt_irrefl _)
      rw [List.getD_eq_getElem?_getD, List.getElem?_eq_getElem hl, Option.getD_some]
      exact fun hnil => hargs (hnil ▸ List.getElem_mem hl)
    · exact hl
    · refine absurd ?_ ((hlt args.length).mp hl)
      rw [List.getD_eq_getElem?_getD, List.getElem?_eq_none le_rfl, Option.getD_none]
  refine congrArg Except.ok (List.ext_getElem (by simpa using hcount) (fun k hk hk' => ?_))
  rw [List.length_map] at hk'
  have hval := hat k args[k] (List.getElem?_eq_getElem hk')
  rw [List.getD_eq_getElem?_getD, List.getElem?_eq_getElem hk, Option.getD_some] at hval
  rw [hval, List.getElem_map]

/-- **What can be sent is delivered.** -/
theorem delivers_of_canSend [Fintype α] {ids : Set ℕ} {held : τ → Set ℕ}
    (hunderstands : Understands G objs R store ids held) (hroot : objs root = none)
    (hG : G root = .table t) (ht : IsCall t obj method args)
    (leading : Value (Point ω) → List (Value (Point ω))) (h : CanSend G objs root args) :
    Delivers leading G objs R store root obj method args := by
  obtain ⟨fuel, b, st, hp, fuel', w, ust, hu, φ, order, harr⟩ :=
    exists_arrives hunderstands (v := .ref root) trivial h.nameless
  obtain ⟨i, rfl, -, hcontents⟩ := harr.contents hroot hG hp hu
  refine ⟨fuel, b, st, fuel', i, ust, φ, order, hp, hu, harr, fun L => ?_⟩
  obtain ⟨rest, hrest, -, hargs⟩ := h.exists_rest ht φ L
  refine ⟨rest, ?_, hargs⟩
  rw [show ust.store.tables.getD i [] = received φ t from hcontents]
  refine dispatch_eq_ok.mpr ⟨rest, hrest, ?_⟩
  rw [ht.rawget_method, ht.rawget_self]

/-- **What is delivered whatever the border is can be sent.** -/
theorem canSend_of_delivers [Fintype α] {ids : Set ℕ} {held : τ → Set ℕ}
    (hunderstands : Understands G objs R store ids held) (hroot : objs root = none)
    (hG : G root = .table t) (ht : IsCall t obj method args)
    {leading : Value (Point ω) → List (Value (Point ω))}
    (h : Delivers leading G objs R store root obj method args) : CanSend G objs root args := by
  obtain ⟨fuel, b, st, fuel', i, ust, φ, order, hp, hu, harr, hdispatch⟩ := h
  obtain ⟨_, hi, -, hcontents⟩ := harr.contents hroot hG hp hu
  obtain rfl : i = _ := by simpa using hi
  rw [show ust.store.tables.getD i [] = received φ t from hcontents] at hdispatch
  set L := Interpreter.first (Point ω) with hL
  obtain ⟨rest, hrest, hargs⟩ := hdispatch L
  obtain ⟨args', hunpack, hinv⟩ := dispatch_eq_ok.mp hrest
  obtain ⟨rfl, hroom⟩ := eq_of_unpackTable (ht.rawget_n φ) hunpack
  rw [ht.rawget_self, Invocation.mk.injEq] at hinv
  obtain rfl := List.append_cancel_left hinv.2.2
  -- an argument that is not `nil` is in front of the border
  have hlt : ∀ {k v}, args[k]? = some v → v ≠ .nil → k < L.length (received φ t) := by
    intro k v hk hv
    by_contra hge
    have hnil := hargs k v hk
    rw [List.getD_eq_getElem?_getD, List.getElem?_eq_none (by simpa using hge)] at hnil
    cases v <;> simp_all [Value.map]
  have hat : ∀ {k v}, args[k]? = some v → k < L.length (received φ t) →
      rawget (received φ t) (position k) = v.map φ := by
    intro k v hk hklt
    have hval := hargs k v hk
    rwa [List.getD_eq_getElem?_getD, List.getElem?_map, List.getElem?_range hklt,
      Option.map_some, Option.getD_some] at hval
  have hfits : ∀ {k v}, args[k]? = some v → v ≠ .nil →
      ((k + 1 : ℕ) : ℤ) + 3 ≤ maxCStack := by
    intro k v hk hv
    have hklt := hlt hk hv
    have := hroom (by omega)
    omega
  refine ⟨fun i j v hij hi hj => ?_, fun k v hk hv => hfits hk hv, fun n hn => ?_, ?_⟩
  · by_contra hv
    have hilt := hij.trans (hlt hj hv)
    exact rawget_of_lt_firstFree hilt (hat hi hilt)
  · obtain ⟨k, hk⟩ := List.getElem?_of_mem hn
    have hval := hat hk (hlt hk (by simp))
    rw [ht.rawget_position φ (hfits hk (by simp)), List.getD_eq_getElem?_getD, hk,
      Option.getD_some] at hval
    simpa [decode, Value.map] using hval
  · exact (decodes_iff_not_occurs hunderstands (v := .ref root) trivial).mp
      ⟨fuel, b, st, fuel', _, ust, hp, hu⟩

end Delivers

/-- **Remote calls deliver their argument list exactly when it can be sent**: on
the server and on the client, for a method of an object and for a function of
the API, and whatever border `#` picks. -/
theorem delivers_iff {α ω τ : Type} [DecidableEq α] [DecidableEq ω] [Fintype α] {G : Graph α}
    {objs : α → Option ℕ} {R : Receiver ω τ} {store : Store ω τ} {ids : Set ℕ}
    {held : τ → Set ℕ} (hunderstands : Understands G objs R store ids held) {root : α}
    {t : Table α} {obj : Value α} {method : Bytes} {args : List (Value α)}
    (hroot : objs root = none) (hG : G root = .table t) (ht : IsCall t obj method args) :
    (∀ sender player : Value (Point ω),
      Delivers (serverLeading sender player) G objs R store root obj method args
        ↔ CanSend G objs root args) ∧
    (Delivers clientLeading G objs R store root obj method args
      ↔ CanSend G objs root args) :=
  ⟨fun _ _ => ⟨canSend_of_delivers hunderstands hroot hG ht,
      delivers_of_canSend hunderstands hroot hG ht _⟩,
    ⟨canSend_of_delivers hunderstands hroot hG ht,
      delivers_of_canSend hunderstands hroot hG ht _⟩⟩

/-- A table by itself is understood by everybody. -/
theorem understands_table (t : Table Unit) (ht : ∀ x ∈ t.elements, x.Sendable) :
    Understands (fun _ => .table t) (fun _ => none) (Receiver.plain Unit Unit) ⟨[], ()⟩ ∅
      (fun _ => ∅) where
  isMessage := ⟨fun _ _ => Or.inl ⟨t, rfl⟩, fun _ _ => ht, fun _ _ _ _ h => absurd h (by simp)⟩
  known _ _ h := absurd h (by simp)
  recorded _ _ _ h := absurd h (by simp)
  entries _ h := absurd h (Set.notMem_empty _)
  store := ⟨by simp, by simp, Set.empty_subset _⟩
  serves _ _ _ _ h := absurd h (by simp)

/-- What a client logs in with: a name, a password if there is one, and the
colours. -/
def login (pass : Value Unit) : List (Value Unit) :=
  [.string (bytes "ToxicFrog"), pass, .number (.ofInt 0), .number (.ofInt 1), .number (.ofInt 1)]

theorem sendable_login {pass : Value Unit} (h : pass.Sendable) :
    ∀ x ∈ login pass, x.Sendable := by
  intro x hx
  simp only [login, List.mem_cons, List.not_mem_nil, or_false] at hx
  rcases hx with rfl | rfl | rfl | rfl | rfl
  · trivial
  · exact h
  all_goals trivial

/-- With a password a client logs in as it was told to. -/
theorem delivers_iff_password :
    Delivers (serverLeading .nil .nil)
      (fun _ => .table (callTable .nil (bytes "login") (login (.string (bytes "topsecret")))))
      (fun _ => none) (Receiver.plain Unit Unit) ⟨[], ()⟩ () .nil (bytes "login")
      (login (.string (bytes "topsecret"))) := by
  have hpass : (.string (bytes "topsecret") : Value Unit).Sendable := trivial
  have hsend := sendable_callTable (.nil : Value Unit) (bytes "login") _ trivial
    (sendable_login hpass)
  have hcall := isCall_callTable (.nil : Value Unit) (bytes "login")
    (login (.string (bytes "topsecret"))) (Or.inl rfl) (by decide)
  have hsame : ∀ n : ℤ, |n| < 10 ^ 14 → (Number.ofInt n).reread = .ofInt n := fun n hn =>
    Number.reread_of_tonumber (Number.tonumber_tostring_ofInt hn)
  have hcan : CanSend (fun _ : Unit => .table (callTable .nil (bytes "login")
      (login (.string (bytes "topsecret"))))) (fun _ => none) ()
      (login (.string (bytes "topsecret"))) := by
    refine ⟨fun i j v _ hi _ => ?_, fun k v hk _ => ?_, fun n hn => ?_, fun hocc => ?_⟩
    · exact absurd (List.mem_of_getElem? hi) (by decide +kernel)
    · have hlt : k < 5 := (List.getElem?_eq_some_iff.mp hk).1
      rw [maxCStack]
      omega
    · simp only [login, List.mem_cons, Value.number.injEq, List.not_mem_nil, or_false,
        reduceCtorEq, false_or] at hn
      rcases hn with rfl | rfl | rfl
      · exact hsame 0 (by decide)
      · exact hsame 1 (by decide)
      · exact hsame 1 (by decide)
    · refine hocc.preserves (P := fun v => v ≠ .string (bytes "n")) (fun a _ _ => ?_) (by simp) rfl
      exact (by decide +kernel : ∀ x ∈ (callTable (.nil : Value Unit) (bytes "login")
        (login (.string (bytes "topsecret")))).elements, x ≠ .string (bytes "n"))
  exact ((delivers_iff (understands_table _ hsend) rfl rfl hcall).1 .nil .nil).mpr hcan

/-- **What stands behind a `nil`** need not arrive: `{ method = "m"; nil, 2 }`. -/
theorem not_delivers : ¬ ∀ (obj : Value Unit) (method : Bytes) (args : List (Value Unit)),
    obj = .nil ∨ (∃ a, obj = .ref a) → args.length ≤ 2 ^ 53 → (∀ x ∈ args, x.Sendable) →
    Delivers (serverLeading .nil .nil) (fun _ : Unit => .table (callTable obj method args))
      (fun _ => none) (Receiver.plain Unit Unit) ⟨[], ()⟩ () obj method args := by
  intro h
  have hsend : ∀ x ∈ ([.nil, .number (.ofInt 2)] : List (Value Unit)), x.Sendable := by
    intro x hx
    rcases List.mem_pair.mp hx with rfl | rfl <;> trivial
  have hcan := canSend_of_delivers
    (understands_table _ (sendable_callTable .nil (bytes "m") _ trivial hsend)) rfl rfl
    (isCall_callTable .nil (bytes "m") [.nil, .number (.ofInt 2)] (Or.inl rfl) (by decide))
    (h .nil (bytes "m") [.nil, .number (.ofInt 2)] (Or.inl rfl) (by decide) hsend)
  exact absurd (hcan.noHole 0 1 (.number (.ofInt 2)) (by omega) rfl rfl) (by simp)

end Net

end Felt
