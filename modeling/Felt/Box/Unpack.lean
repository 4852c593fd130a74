import Felt.Box.Toc

/-!
# Unpacking a box

`box.unpack` looks at the first byte and hands the rest to the method of that
tag. Tags `T` and `C` read a table of contents and unpack each element; both
append to `refs` before they do, so that an element may refer back to the
table it stands in. For tag `C` what is appended is the marker `false`, which
is replaced by the object once `__unpack` has returned it: until then a
reference to it is no reference at all.

What a receiver brings is a parameter. `Receiver` has the table of objects
that came with the call, the modules `require` finds, and the border `#`
answers for a list with holes – any border, as the language allows. The
modules' own code is taken to return or to raise; that is all that is assumed
of it.

`UnpackStep` is to the decoder what `PackStep` is to the encoder: what a step
that returns has done, with everything it has read and changed. Proofs about the
decoder go by its cases, and by induction on the fuel, which is the depth of the
elements that are still to be read.

The history is a record of what has been built and called, in that order. The
decoder never looks at it; it is there to say which constructor an object was
rebuilt from, when the tables of the constructor may have been changed since.
-/

namespace Felt

namespace Box

/-- **What a decoded reference denotes**: a table built from the message, or
an object of the receiver's. -/
inductive Point (ω : Type) where
  /-- The `i`-th table the receiver built. -/
  | table (i : ℕ)
  /-- An object. -/
  | object (o : ω)
  deriving DecidableEq

/-- The receiver's memory: the contents of each table it built, and all the
rest. -/
structure Store (ω τ : Type) where
  /-- The contents of each table. -/
  tables : List (List (Value (Point ω) × Value (Point ω)))
  /-- Whatever else there is. -/
  world : τ

/-- A call into the receiver's modules: it returns or raises, and leaves the
memory in some state. -/
abbrev Effect (ω τ α : Type) : Type := Store ω τ → Except BoxError α × Store ω τ

/-- A position `#` may answer: nothing stands behind it, and something at it
unless it is zero. -/
def IsBorder {α : Type} (l : List (Value α)) (n : ℕ) : Prop :=
  n ≤ l.length ∧ (∀ v, l[n]? = some v → v = .nil) ∧ (0 < n → l[n - 1]? ≠ some .nil)

/-- **What the receiver brings to a call of `box.unpack`.** -/
structure Receiver (ω τ : Type) where
  /-- `objs`, when it was given: the object under a number, as of now. -/
  objs : Option (τ → Number → Option ω)
  /-- `require(type)`: the module, by its `__unpack` if it has one. -/
  require : Value (Point ω) → Effect ω τ
    (Option (Value (Point ω) → Effect ω τ (Value (Point ω))))
  /-- `#` of a list. -/
  border : List (Value (Point ω)) → ℕ
  /-- It is a border. -/
  isBorder : ∀ l, IsBorder l (border l)

/-- The only border of a list without holes is its length. -/
theorem IsBorder.eq_length {α : Type} {l : List (Value α)} {n : ℕ} (h : IsBorder l n)
    (hl : ∀ v ∈ l, v ≠ .nil) : n = l.length := by
  by_contra hne
  have hlt : n < l.length := by
    have := h.1
    omega
  exact hl _ (List.getElem_mem hlt) (h.2.1 _ (List.getElem?_eq_getElem hlt))

/-- **What happens while a message is decoded**, for the record. -/
inductive Event (ω : Type) where
  /-- The `i`-th table has got its entries: these. -/
  | built (i : ℕ) (contents : List (Value (Point ω) × Value (Point ω)))
  /-- `__unpack` of a type was called with an argument, and answered. -/
  | called (type arg : Value (Point ω)) (answer : Except BoxError (Value (Point ω)))

/-- The state of a call of `box.unpack`. Nothing reads `history`. -/
structure UnpackState (ω τ : Type) where
  /-- What a back-reference may refer to, from index one on. -/
  refs : List (Value (Point ω))
  /-- The receiver's memory. -/
  store : Store ω τ
  /-- What has happened so far. -/
  history : List (Event ω)

variable {ω τ : Type}

/-- `t[k] = v` on the contents of a table. -/
def assign {α : Type} [DecidableEq α] (k v : Value α) :
    List (Value α × Value α) → List (Value α × Value α)
  | [] => if v = .nil then [] else [(k, v)]
  | p :: l =>
    if p.1 = k then (if v = .nil then l else (k, v) :: l) else p :: assign k v l

/-- The entry of a list under a number: whole and from one on. -/
def entryAt {α : Type} (l : List α) : Number → Option α
  | .fin q => if q.den = 1 ∧ 1 ≤ q.num then l[q.num.toNat - 1]? else none
  | _ => none

/-- `refs[#refs+1] = v`. -/
def pushRef (v : Value (Point ω)) : Run (UnpackState ω τ) BoxError Unit :=
  Run.modify (fun st => { st with refs := st.refs ++ [v] })

/-- `{}`. -/
def newTable : Run (UnpackState ω τ) BoxError ℕ := do
  let st ← Run.get
  Run.modify (fun st => { st with store := { st.store with tables := st.store.tables ++ [[]] } })
  pure st.store.tables.length

/-- Run a call into the receiver's modules. -/
def callOut {α : Type} (f : Effect ω τ α) : Run (UnpackState ω τ) BoxError α := do
  let st ← Run.get
  Run.modify (fun st' => { st' with store := (f st.store).2 })
  Run.ofExcept (f st.store).1

/-- `unpack.N`. -/
def unpackN (buf : Bytes) : Run (UnpackState ω τ) BoxError (Value (Point ω)) := do
  let n ← Run.assertSome (Number.tonumber buf) (.malformedNumber buf)
  pure (.number n)

/-- Write down what has happened. -/
def note (event : UnpackState ω τ → Event ω) : Run (UnpackState ω τ) BoxError Unit :=
  Run.modify (fun st => { st with history := st.history ++ [event st] })

/-- `unpack.R`. -/
def unpackR (A : Arith) (buf : Bytes) : Run (UnpackState ω τ) BoxError (Value (Point ω)) := do
  let st ← Run.get
  let v ← Run.assertSome ((A.index buf).bind (entryAt st.refs))
    (.invalidBackreference buf)
  if v.truthy then pure v else Run.throw (.invalidBackreference buf)

/-- `unpack.O`. -/
def unpackO (A : Arith) (R : Receiver ω τ) (buf : Bytes) :
    Run (UnpackState ω τ) BoxError (Value (Point ω)) := do
  let st ← Run.get
  let objs ← Run.assertSome R.objs (.refused "index nil")
  let o ← Run.assertSome ((A.index buf).bind (objs st.store.world))
    (.invalidObjectReference buf)
  pure (.ref (.object o))

/-- The second half of `unpack.C`: find the module, and have its `__unpack`
make the object. -/
def instantiate (R : Receiver ω τ) (type arg : Value (Point ω)) :
    Run (UnpackState ω τ) BoxError (Value (Point ω)) := do
  let mm ← callOut (R.require type)
  let _ ← Run.assertSome mm .noUnpack
  let mm ← callOut (R.require type)
  let unpack ← Run.assertSome mm (.refused "call nil")
  note (fun st => .called type arg (unpack arg st.store).1)
  let obj ← callOut (unpack arg)
  if obj.truthy then pure obj else Run.throw .unpackFailed

/-- `unpack.C`; `up` unpacks an element, `toc` reads the table of contents. -/
def unpackC (R : Receiver ω τ) (toc : Bytes → Run (UnpackState ω τ) BoxError (List Bytes))
    (up : Bytes → Run (UnpackState ω τ) BoxError (Value (Point ω))) (buf : Bytes) :
    Run (UnpackState ω τ) BoxError (Value (Point ω)) := do
  let st ← Run.get
  pushRef (.boolean false)
  let data ← toc buf
  let type ← Run.assertSome data[0]? (.refused "index nil") >>= up
  let arg ← Run.assertSome data[1]? (.refused "index nil") >>= up
  let obj ← instantiate R type arg
  Run.modify (fun st' => { st' with refs := st'.refs.set st.refs.length obj })
  pure obj

section Elements

variable [DecidableEq ω]

/-- `T[k] = v`, for the `i`-th table. -/
def setEntry (i : ℕ) (k v : Value (Point ω)) : Run (UnpackState ω τ) BoxError Unit :=
  if k.IsKey then
    Run.modify (fun st => { st with store :=
      { st.store with tables := st.store.tables.modify i (assign k v) } })
  else Run.throw (.refused "table index is nil or NaN")

/-- `for i=1,#data,2 do T[data[i]] = data[i+1] end`. -/
def setEntries (i : ℕ) : List (Value (Point ω)) → Run (UnpackState ω τ) BoxError Unit
  | [] => pure ()
  | [k] => setEntry i k .nil
  | k :: v :: data => do
    setEntry i k v
    setEntries i data

/-- `unpack.T`. -/
def unpackT (R : Receiver ω τ) (toc : Bytes → Run (UnpackState ω τ) BoxError (List Bytes))
    (up : Bytes → Run (UnpackState ω τ) BoxError (Value (Point ω))) (buf : Bytes) :
    Run (UnpackState ω τ) BoxError (Value (Point ω)) := do
  let i ← newTable
  pushRef (.ref (.table i))
  let elements ← toc buf
  let data ← Run.mapList up elements
  setEntries i (data.take (R.border data))
  note (fun st => .built i (st.store.tables.getD i []))
  pure (.ref (.table i))

/-- `do_unpack`, and the method `getunpackmethod` finds for the tag. -/
def doUnpack (A : Arith) (R : Receiver ω τ) :
    ℕ → Bytes → Run (UnpackState ω τ) BoxError (Value (Point ω))
  | 0, _ => Run.timeout
  | _ + 1, [] => Run.throw (.unknownTag [])
  | _ + 1, 110 :: _ => pure .nil -- n
  | _ + 1, 116 :: _ => pure (.boolean true) -- t
  | _ + 1, 102 :: _ => pure (.boolean false) -- f
  | _ + 1, 78 :: buf => unpackN buf -- N
  | _ + 1, 83 :: buf => pure (.string buf) -- S
  | _ + 1, 82 :: buf => unpackR A buf -- R
  | _ + 1, 79 :: buf => unpackO A R buf -- O
  | fuel + 1, 84 :: buf => unpackT R (readtoc A fuel) (doUnpack A R fuel) buf -- T
  | fuel + 1, 67 :: buf => unpackC R (readtoc A fuel) (doUnpack A R fuel) buf -- C
  | _ + 1, tag :: _ => Run.throw (.unknownTag [tag])

/-- **`box.unpack`**, in a receiver's memory. -/
def unpack (A : Arith) (R : Receiver ω τ) (fuel : ℕ) (buf : Bytes) (store : Store ω τ) :
    Outcome (UnpackState ω τ) BoxError (Value (Point ω)) :=
  doUnpack A R fuel buf ⟨[], store, []⟩

/-! ## One step of the decoder -/

/-- The state in which the elements of a table are unpacked. -/
def UnpackState.enterTable (st : UnpackState ω τ) : UnpackState ω τ :=
  ⟨st.refs ++ [.ref (.table st.store.tables.length)],
    { st.store with tables := st.store.tables ++ [[]] }, st.history⟩

/-- The state in which the elements of a call object are unpacked. -/
def UnpackState.enterCall (st : UnpackState ω τ) : UnpackState ω τ :=
  { st with refs := st.refs ++ [.boolean false] }

theorem doUnpack_table (A : Arith) (R : Receiver ω τ) (fuel : ℕ) (buf : Bytes)
    (st : UnpackState ω τ) :
    doUnpack A R (fuel + 1) (84 :: buf) st
      = (readtoc A fuel buf >>= fun elements =>
          Run.mapList (doUnpack A R fuel) elements >>= fun data =>
          setEntries st.store.tables.length (data.take (R.border data)) >>= fun _ =>
          note (fun st' => .built st.store.tables.length
            (st'.store.tables.getD st.store.tables.length [])) >>= fun _ =>
          pure (.ref (.table st.store.tables.length))) st.enterTable := rfl

theorem doUnpack_call (A : Arith) (R : Receiver ω τ) (fuel : ℕ) (buf : Bytes)
    (st : UnpackState ω τ) :
    doUnpack A R (fuel + 1) (67 :: buf) st
      = (readtoc A fuel buf >>= fun data =>
          (Run.assertSome data[0]? (.refused "index nil") >>= doUnpack A R fuel)
            >>= fun type =>
          (Run.assertSome data[1]? (.refused "index nil") >>= doUnpack A R fuel)
            >>= fun arg =>
          instantiate R type arg >>= fun obj =>
          Run.modify (fun st' => { st' with refs := st'.refs.set st.refs.length obj })
            >>= fun _ => pure obj) st.enterCall := rfl

/-- A tag that neither `T` nor `C` needs no fuel below it. -/
theorem doUnpack_leaf (A : Arith) (R : Receiver ω τ) {tag : UInt8} (hT : tag ≠ 84)
    (hC : tag ≠ 67) (m n : ℕ) (buf : Bytes) :
    doUnpack A R (m + 1) (tag :: buf) = doUnpack A R (n + 1) (tag :: buf) := by
  unfold doUnpack
  split <;> simp_all

/-- **What one step of the decoder can do** when it returns: read a leaf, which
changes nothing, or a table or a call object, the elements of which are unpacked
behind the entry it was given in `refs`. -/
inductive UnpackStep (A : Arith) (R : Receiver ω τ) (fuel : ℕ) :
    Bytes → UnpackState ω τ → Value (Point ω) → UnpackState ω τ → Prop where
  /-- A leaf. -/
  | leaf {buf : Bytes} {st : UnpackState ω τ} {v : Value (Point ω)}
      (hT : buf.head? ≠ some 84) (hC : buf.head? ≠ some 67) : UnpackStep A R fuel buf st v st
  /-- A table. -/
  | table {buf : Bytes} {elements : List Bytes} {data : List (Value (Point ω))}
      {st st₁ st' : UnpackState ω τ} (htoc : readtoc A fuel buf () = .ok elements ())
      (hdata : Run.mapList (doUnpack A R fuel) elements st.enterTable = .ok data st₁)
      (hrefs : st'.refs = st₁.refs) :
      UnpackStep A R fuel (84 :: buf) st (.ref (.table st.store.tables.length)) st'
  /-- A call object. -/
  | call {buf type arg : Bytes} {more : List Bytes} {data : List (Value (Point ω))}
      {v : Value (Point ω)} {st st₁ st' : UnpackState ω τ}
      (htoc : readtoc A fuel buf () = .ok (type :: arg :: more) ())
      (hdata : Run.mapList (doUnpack A R fuel) [type, arg] st.enterCall = .ok data st₁)
      (hv : v.truthy = true) (hrefs : st'.refs = st₁.refs.set st.refs.length v) :
      UnpackStep A R fuel (67 :: buf) st v st'

omit [DecidableEq ω] in
theorem refs_of_callOut {β : Type} {f : Effect ω τ β} {st st' : UnpackState ω τ} {x : β}
    (h : callOut f st = .ok x st') : st'.refs = st.refs := by
  rw [callOut, Run.get_bind, Run.modify_bind] at h
  rcases hf : (f st.store).1 with e | y
  · rw [hf] at h
    cases h
  · rw [hf] at h
    obtain ⟨-, rfl⟩ := Outcome.ok.inj h
    rfl

omit [DecidableEq ω] in
/-- Making an object leaves `refs` to the caller, and what is made is there. -/
theorem refs_of_instantiate {R : Receiver ω τ} {type arg obj : Value (Point ω)}
    {st st' : UnpackState ω τ} (h : instantiate R type arg st = .ok obj st') :
    st'.refs = st.refs ∧ obj.truthy = true := by
  obtain ⟨mm, st₁, h₁, hrest⟩ := Run.bind_eq_ok.mp h
  obtain ⟨_, st₂, h₂, hrest⟩ := Run.bind_eq_ok.mp hrest
  obtain ⟨mm', st₃, h₃, hrest⟩ := Run.bind_eq_ok.mp hrest
  obtain ⟨unpack, st₄, h₄, hrest⟩ := Run.bind_eq_ok.mp hrest
  rw [note, Run.modify_bind] at hrest
  obtain ⟨obj', st₅, h₅, hlast⟩ := Run.bind_eq_ok.mp hrest
  have hrefs : st₅.refs = st.refs := by
    rw [refs_of_callOut h₅, (Run.assertSome_eq_ok.mp h₄).2, refs_of_callOut h₃,
      (Run.assertSome_eq_ok.mp h₂).2, refs_of_callOut h₁]
  split at hlast
  · next htruthy =>
    obtain ⟨rfl, rfl⟩ := Outcome.ok.inj hlast
    exact ⟨hrefs, htruthy⟩
  · cases hlast

theorem refs_of_setEntry {i : ℕ} {k v : Value (Point ω)} {st st' : UnpackState ω τ} {x : Unit}
    (h : setEntry i k v st = .ok x st') : st'.refs = st.refs := by
  unfold setEntry at h
  split at h
  · obtain ⟨-, rfl⟩ := Outcome.ok.inj h
    rfl
  · cases h

/-- The entries of a table are set without looking at `refs`. -/
theorem refs_of_setEntries (i : ℕ) :
    ∀ (data : List (Value (Point ω))) {st st' : UnpackState ω τ} {x : Unit},
      setEntries i data st = .ok x st' → st'.refs = st.refs
  | [], _, _, _, h => by
    obtain ⟨-, rfl⟩ := Outcome.ok.inj h
    rfl
  | [_], _, _, _, h => refs_of_setEntry h
  | _ :: _ :: data, _, _, _, h => by
    obtain ⟨_, st₁, h₁, h⟩ := Run.bind_eq_ok.mp h
    rw [refs_of_setEntries i data h, refs_of_setEntry h₁]

/-- A leaf changes nothing. -/
theorem eq_of_doUnpack_leaf {A : Arith} {R : Receiver ω τ} {fuel : ℕ} {buf : Bytes}
    {st st' : UnpackState ω τ} {v : Value (Point ω)} (hT : buf.head? ≠ some 84)
    (hC : buf.head? ≠ some 67) (h : doUnpack A R (fuel + 1) buf st = .ok v st') : st' = st := by
  suffices hleaf : ∀ x, doUnpack A R (fuel + 1) buf = x → x st = .ok v st' → st' = st from
    hleaf _ rfl h
  intro x hx h
  unfold doUnpack at hx
  split at hx
  · next heq => exact absurd heq (Nat.succ_ne_zero _)
  · subst hx; cases h
  · subst hx; exact (Outcome.ok.inj h).2.symm
  · subst hx; exact (Outcome.ok.inj h).2.symm
  · subst hx; exact (Outcome.ok.inj h).2.symm
  · subst hx
    obtain ⟨n, st₁, hn, h⟩ := Run.bind_eq_ok.mp h
    exact (Outcome.ok.inj h).2.symm.trans (Run.assertSome_eq_ok.mp hn).2
  · subst hx; exact (Outcome.ok.inj h).2.symm
  · subst hx
    rw [unpackR, Run.get_bind] at h
    obtain ⟨w, st₁, hw, h⟩ := Run.bind_eq_ok.mp h
    split at h
    · exact (Outcome.ok.inj h).2.symm.trans (Run.assertSome_eq_ok.mp hw).2
    · cases h
  · subst hx
    rw [unpackO, Run.get_bind] at h
    obtain ⟨objs, st₁, ho, h⟩ := Run.bind_eq_ok.mp h
    obtain ⟨o, st₂, ho', h⟩ := Run.bind_eq_ok.mp h
    exact (Outcome.ok.inj h).2.symm.trans
      ((Run.assertSome_eq_ok.mp ho').2.trans (Run.assertSome_eq_ok.mp ho).2)
  · exact absurd rfl hT
  · exact absurd rfl hC
  · subst hx; cases h

/-- **A step that returns is one of `UnpackStep`.** -/
theorem unpackStep_of_doUnpack {A : Arith} {R : Receiver ω τ} {fuel : ℕ} {buf : Bytes}
    {st st' : UnpackState ω τ} {v : Value (Point ω)}
    (h : doUnpack A R (fuel + 1) buf st = .ok v st') : UnpackStep A R fuel buf st v st' := by
  by_cases hT : buf.head? = some 84
  · obtain ⟨b, rfl⟩ := List.head?_eq_some_iff.mp hT
    rw [doUnpack_table] at h
    obtain ⟨elements, st₁, htoc, hrest⟩ := Run.bind_eq_ok.mp h
    obtain ⟨data, st₂, hdata, hrest⟩ := Run.bind_eq_ok.mp hrest
    obtain ⟨_, st₃, hset, hlast⟩ := Run.bind_eq_ok.mp hrest
    rw [(length_le_of_readtoc htoc).1] at hdata
    rw [note, Run.modify_bind] at hlast
    obtain ⟨rfl, rfl⟩ := Outcome.ok.inj hlast
    have hrefs := refs_of_setEntries _ _ hset
    exact .table (readtoc_state htoc ()) hdata hrefs
  by_cases hC : buf.head? = some 67
  · obtain ⟨b, rfl⟩ := List.head?_eq_some_iff.mp hC
    rw [doUnpack_call] at h
    obtain ⟨elements, st₁, htoc, hrest⟩ := Run.bind_eq_ok.mp h
    obtain ⟨type, st₂, htype, hrest⟩ := Run.bind_eq_ok.mp hrest
    obtain ⟨arg, st₃, harg, hrest⟩ := Run.bind_eq_ok.mp hrest
    obtain ⟨obj, st₄, hobj, hlast⟩ := Run.bind_eq_ok.mp hrest
    -- the first two elements are there, as `do_unpack` of nothing raises
    obtain ⟨x, _, hassert, htype⟩ := Run.bind_eq_ok.mp htype
    obtain ⟨y, _, hassert', harg⟩ := Run.bind_eq_ok.mp harg
    obtain ⟨hx, rfl⟩ := Run.assertSome_eq_ok.mp hassert
    obtain ⟨hy, rfl⟩ := Run.assertSome_eq_ok.mp hassert'
    have hst := (length_le_of_readtoc htoc).1
    subst hst
    clear hassert hassert'
    obtain ⟨hrefs, htruthy⟩ := refs_of_instantiate hobj
    rw [Run.modify_bind] at hlast
    obtain ⟨rfl, rfl⟩ := Outcome.ok.inj hlast
    match elements, hx, hy, htoc with
    | a :: b :: more, hx, hy, htoc =>
      obtain rfl := Option.some.inj hx
      obtain rfl := Option.some.inj hy
      have hset : st₄.refs.set st.refs.length obj = st₃.refs.set st.refs.length obj := by
        rw [hrefs]
      have hdata : Run.mapList (doUnpack A R fuel) [a, b] st.enterCall = .ok [type, arg] st₃ :=
        Run.mapList_cons_eq_ok.mpr ⟨_, _, _, htype,
          Run.mapList_cons_eq_ok.mpr ⟨_, _, _, harg, Run.mapList_nil _ _, rfl⟩, rfl⟩
      exact .call (readtoc_state htoc ()) hdata htruthy hset
  · obtain rfl := eq_of_doUnpack_leaf hT hC h
    exact .leaf hT hC

end Elements

/-! ## What does not time out -/

theorem callOut_ne_timeout {α : Type} (f : Effect ω τ α) (st : UnpackState ω τ) :
    callOut f st ≠ .timeout := by
  show Run.ofExcept (f st.store).1 _ ≠ .timeout
  exact Run.ofExcept_ne_timeout _ _

theorem instantiate_ne_timeout (R : Receiver ω τ) (type arg : Value (Point ω))
    (st : UnpackState ω τ) : instantiate R type arg st ≠ .timeout := by
  refine Run.bind_ne_timeout (callOut_ne_timeout _ _) (fun mm st₁ _ => ?_)
  refine Run.bind_ne_timeout (Run.assertSome_ne_timeout _ _ _) (fun _ st₂ _ => ?_)
  refine Run.bind_ne_timeout (callOut_ne_timeout _ _) (fun mm st₃ _ => ?_)
  refine Run.bind_ne_timeout (Run.assertSome_ne_timeout _ _ _) (fun unpack st₄ _ => ?_)
  rw [note, Run.modify_bind]
  refine Run.bind_ne_timeout (callOut_ne_timeout _ _) (fun obj st₅ _ => ?_)
  split <;> nofun

theorem setEntry_ne_timeout [DecidableEq ω] (i : ℕ) (k v : Value (Point ω))
    (st : UnpackState ω τ) : setEntry i k v st ≠ .timeout := by
  unfold setEntry
  split <;> nofun

theorem setEntries_ne_timeout [DecidableEq ω] (i : ℕ) :
    ∀ (data : List (Value (Point ω))) (st : UnpackState ω τ),
      setEntries i data st ≠ .timeout
  | [], _ => nofun
  | [k], st => setEntry_ne_timeout i k .nil st
  | k :: v :: data, st =>
    Run.bind_ne_timeout (setEntry_ne_timeout i k v st)
      (fun _ st' _ => setEntries_ne_timeout i data st')

theorem doUnpack_leaf_ne_timeout [DecidableEq ω] (A : Arith) (R : Receiver ω τ)
    {buf : Bytes} (hT : buf.head? ≠ some 84) (hC : buf.head? ≠ some 67) (fuel : ℕ)
    (st : UnpackState ω τ) : doUnpack A R (fuel + 1) buf st ≠ .timeout := by
  suffices h : ∀ x, doUnpack A R (fuel + 1) buf = x → x st ≠ .timeout from h _ rfl
  intro x hx
  unfold doUnpack at hx
  split at hx
  · next h => exact absurd h (Nat.succ_ne_zero _)
  · subst hx; simp
  · subst hx; simp
  · subst hx; simp
  · subst hx; simp
  · subst hx
    exact Run.bind_ne_timeout (Run.assertSome_ne_timeout _ _ _) (fun _ _ _ => by simp)
  · subst hx; simp
  · subst hx
    rw [unpackR, Run.get_bind]
    refine Run.bind_ne_timeout (Run.assertSome_ne_timeout _ _ _) (fun v _ _ => ?_)
    split <;> nofun
  · subst hx
    rw [unpackO, Run.get_bind]
    refine Run.bind_ne_timeout (Run.assertSome_ne_timeout _ _ _) (fun _ _ _ => ?_)
    exact Run.bind_ne_timeout (Run.assertSome_ne_timeout _ _ _) (fun _ _ _ => by simp)
  · exact absurd rfl hT
  · exact absurd rfl hC
  · subst hx; simp

/-! ## More fuel -/

theorem doUnpack_approx [DecidableEq ω] (A : Arith) (R : Receiver ω τ) (fuel : ℕ)
    (buf : Bytes) : Run.Approx (doUnpack A R fuel buf) (doUnpack A R (fuel + 1) buf) := by
  induction fuel generalizing buf with
  | zero => exact Run.Approx.timeout _
  | succ fuel ih =>
    rcases buf with _ | ⟨tag, buf⟩
    · exact .refl _
    by_cases hT : tag = 84
    · subst hT
      intro st hst
      rw [doUnpack_table] at hst
      rw [doUnpack_table, doUnpack_table]
      refine ((readtoc_approx fuel buf).bind (fun elements => ?_)) _ hst
      exact (Run.Approx.mapList ih elements).bind (fun data => .refl _)
    · by_cases hC : tag = 67
      · subst hC
        intro st hst
        rw [doUnpack_call] at hst
        rw [doUnpack_call, doUnpack_call]
        refine ((readtoc_approx fuel buf).bind (fun data => ?_)) _ hst
        refine ((Run.Approx.refl _).bind ih).bind (fun type => ?_)
        exact ((Run.Approx.refl _).bind ih).bind (fun arg => .refl _)
      · rw [doUnpack_leaf A R hT hC fuel (fuel + 1)]
        exact .refl _

/-- More fuel changes nothing once the decoder has answered. -/
theorem doUnpack_of_le [DecidableEq ω] {A : Arith} {R : Receiver ω τ} {m n : ℕ}
    (hmn : m ≤ n) {buf : Bytes} {st : UnpackState ω τ}
    (h : doUnpack A R m buf st ≠ .timeout) :
    doUnpack A R n buf st = doUnpack A R m buf st :=
  Run.Approx.of_le (fun k => doUnpack_approx A R k buf) hmn st h

/-- The same of the elements of a table. -/
theorem mapList_doUnpack_of_le [DecidableEq ω] {A : Arith} {R : Receiver ω τ} {m n : ℕ}
    (hmn : m ≤ n) {l : List Bytes} {st st' : UnpackState ω τ} {data : List (Value (Point ω))}
    (h : Run.mapList (doUnpack A R m) l st = .ok data st') :
    Run.mapList (doUnpack A R n) l st = .ok data st' :=
  (Run.Approx.mapList
    (fun b => Run.Approx.of_le (fun k => doUnpack_approx A R k b) hmn) l).ok h

/-- A receiver with no objects and no modules, whose `#` stops at the first
hole. -/
def Receiver.plain (ω τ : Type) [DecidableEq ω] : Receiver ω τ where
  objs := none
  require _ := fun store => (.error (.raised (bytes "module not found")), store)
  border l := l.findIdx (· = .nil)
  isBorder l := by
    refine ⟨List.findIdx_le_length, fun v hv => ?_, fun hpos h => ?_⟩
    · obtain ⟨hlt, hget⟩ := List.getElem?_eq_some_iff.mp hv
      have := List.findIdx_getElem (w := hlt)
      rw [hget] at this
      exact of_decide_eq_true this
    · obtain ⟨hlt, hget⟩ := List.getElem?_eq_some_iff.mp h
      have hlast : l.findIdx (· = .nil) - 1 < l.findIdx (· = .nil) := Nat.sub_lt hpos one_pos
      have := List.not_of_lt_findIdx hlast
      simp [hget] at this

end Box

end Felt
