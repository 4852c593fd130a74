import Felt.Box.Contents
import Felt.Box.WellFormed
import Felt.Box.World

/-!
# Messages that load nothing

A message without a value of tag `C` makes no call into the receiver's modules:
decoding it builds tables, and whatever else the receiver has stays as it is.
The only objects in it are the ones it names by their id, and as a back
reference can only mean a table, each of them stands where its id does
(`unpack_inert`).

The invariant is `Building`: the world is as it was, and so are the tables that
there were before. An element is decoded in whatever state those in front of it
have led to, and then is what its text says it is (`Denotes`). The entries of the
outermost table are set last, when all of its elements have been decoded, and each
is of two in a row. So what is found under a key tells which text stands behind
which.
-/

namespace Felt

namespace Box

variable {ω τ : Type} {A : Arith} {R : Receiver ω τ} {W : τ}

/-- **A message loads nothing** when there is no value of tag `C` in it. -/
def Inert (A : Arith) (buf : Bytes) : Prop := ∀ x, Reads A buf x → x.head? ≠ some 67

/-- The object a number in base ten names, as of now. -/
def Receiver.named (R : Receiver ω τ) (A : Arith) (W : τ) (n : Bytes) : Option ω :=
  R.objs.bind (fun objs => (A.index n).bind (objs W))

/-- **While such a message is decoded** the rest of the receiver's memory is as
it was, the tables made before have what they had, and what can be referred
back to are tables. -/
structure Building (W : τ) (before : List (List (Value (Point ω) × Value (Point ω))))
    (st : UnpackState ω τ) : Prop where
  /-- The rest is as it was. -/
  world : st.store.world = W
  /-- The tables made before have what they had. -/
  tables : before <+: st.store.tables
  /-- Only tables can be referred to. -/
  refs : ∀ v ∈ st.refs, ∃ i, v = .ref (.table i)

/-- **What a text is decoded as**: an object only if the text is its id, and a
string only if the text is that string. -/
structure Denotes (A : Arith) (R : Receiver ω τ) (W : τ) (x : Bytes) (v : Value (Point ω)) :
    Prop where
  /-- An object. -/
  object : ∀ o, v = .ref (.object o) → ∃ n, x = 79 :: n ∧ R.named A W n = some o
  /-- A string. -/
  string : ∀ s, v = .string s → x = 83 :: s
  /-- A table: it is here, or this is a reference to it. -/
  table : ∀ i, v = .ref (.table i) → x.head? = some 84 ∨ x.head? = some 82

variable {before : List (List (Value (Point ω) × Value (Point ω)))} {st : UnpackState ω τ}

theorem denotes_of_table {x : Bytes} (hx : x.head? = some 84 ∨ x.head? = some 82) (i : ℕ) :
    Denotes A R W x (.ref (.table i)) where
  object _ h := by cases h
  string _ h := by cases h
  table _ _ := hx

/-- What is found among tables is a table. -/
theorem Building.entryAt (h : Building W before st) {n : Number} {v : Value (Point ω)}
    (hv : entryAt st.refs n = some v) : ∃ i, v = .ref (.table i) := by
  unfold Box.entryAt at hv
  split at hv
  · split_ifs at hv
    exact h.refs v (List.mem_of_getElem? hv)
  · cases hv

/-- A table is made. -/
theorem Building.enterTable (h : Building W before st) :
    Building W (st.store.tables ++ [[]]) st.enterTable where
  world := h.world
  tables := List.prefix_rfl
  refs v hv := by
    rcases List.mem_append.mp hv with hv | hv
    · exact h.refs v hv
    · exact ⟨_, List.mem_singleton.mp hv⟩

/-- More tables may change than did. -/
theorem Building.mono {before' : List (List (Value (Point ω) × Value (Point ω)))}
    (h : Building W before st) (hb : before' <+: before) : Building W before' st :=
  ⟨h.world, hb.trans h.tables, h.refs⟩

/-- **What is referred back to is a table.** -/
theorem unpackR_building (b : Bytes) :
    Run.Triple (Building W before) (unpackR A b)
      (fun v st => Building W before st ∧ Denotes A R W (82 :: b) v)
      (fun _ => Building W before) := by
  refine Run.Triple.get_bind (fun st hst => ?_)
  refine (Run.Triple.assertSome (Q := fun v st' => Building W before st'
    ∧ ∃ i, v = .ref (.table i)) (fun v hv s hs => ?_) (fun _ s hs => hs ▸ hst)).bind (fun v => ?_)
  · obtain ⟨n, -, hn⟩ := Option.bind_eq_some_iff.mp hv
    exact ⟨hs ▸ hst, hst.entryAt hn⟩
  · split
    · refine Run.Triple.pure (fun s hs => ?_)
      obtain ⟨hs', i, rfl⟩ := hs
      exact ⟨hs', denotes_of_table (Or.inr rfl) i⟩
    · exact Run.Triple.throw (fun _ hs => hs.1)

/-- **An object is the one its id names.** -/
theorem unpackO_building (b : Bytes) :
    Run.Triple (Building W before) (unpackO A R b)
      (fun v st => Building W before st ∧ Denotes A R W (79 :: b) v)
      (fun _ => Building W before) := by
  refine Run.Triple.get_bind (fun st hst => ?_)
  refine (Run.Triple.assertSome (Q := fun objs st' => st' = st ∧ R.objs = some objs)
    (fun objs ho s hs => ⟨hs, ho⟩) (fun _ s hs => hs ▸ hst)).bind (fun objs => ?_)
  refine (Run.Triple.assertSome (Q := fun o st' => st' = st ∧ R.named A W b = some o)
    (fun o ho s hs => ⟨hs.1, ?_⟩) (fun _ s hs => hs.1 ▸ hst)).bind (fun o => ?_)
  · rw [Receiver.named, hs.2, ← hst.world]
    exact ho
  · refine Run.Triple.pure (fun s hs => ⟨hs.1 ▸ hst, ⟨fun o' ho' => ?_, nofun, nofun⟩⟩)
    cases ho'
    exact ⟨b, rfl, hs.2⟩

section Elements

variable [DecidableEq ω]

/-- An entry of a table that was made after the others is set. -/
theorem Building.setEntry (h : Building W before st) {i : ℕ} (hi : before.length ≤ i)
    (k v : Value (Point ω)) : Building W before
      { st with store := { st.store with tables := st.store.tables.modify i (assign k v) } } where
  world := h.world
  tables := by
    obtain ⟨more, hmore⟩ := h.tables
    refine List.prefix_iff_getElem?.mpr (fun j hj => ?_)
    show (st.store.tables.modify i (assign k v))[j]? = _
    have hne : i ≠ j := by omega
    rw [List.getElem?_modify, ← hmore, List.getElem?_append_left hj]
    simp [hne]
  refs := h.refs

theorem setEntry_building {i : ℕ} (hi : before.length ≤ i) (k v : Value (Point ω)) :
    Run.Keeps (Building W before) (setEntry i k v) := by
  unfold setEntry
  split
  · exact Run.Keeps.modify (fun st hst => hst.setEntry hi k v)
  · exact Run.Keeps.throw _

theorem setEntries_building {i : ℕ} (hi : before.length ≤ i) :
    ∀ data : List (Value (Point ω)), Run.Keeps (Building W before) (setEntries i data)
  | [] => Run.Keeps.pure ()
  | [k] => setEntry_building hi k .nil
  | k :: v :: data => (setEntry_building hi k v).bind (fun _ => setEntries_building hi data)

/-- Every entry of the `i`-th table is as `P` says. -/
def Entries (i : ℕ) (P : Value (Point ω) × Value (Point ω) → Prop) (st : UnpackState ω τ) : Prop :=
  ∀ p ∈ st.store.tables.getD i [], P p

variable {P : Value (Point ω) × Value (Point ω) → Prop}

theorem setEntry_entries (i : ℕ) {k v : Value (Point ω)} (hkv : P (k, v)) :
    Run.Keeps (Entries i P) (setEntry i k v : Run (UnpackState ω τ) BoxError Unit) := by
  unfold setEntry
  split
  · refine Run.Keeps.modify (fun st hst p hp => ?_)
    change p ∈ (st.store.tables.modify i (assign k v)).getD i [] at hp
    rw [List.getD_eq_getElem?_getD, List.getElem?_modify] at hp
    rcases ht : st.store.tables[i]? with _ | c
    · rw [ht] at hp
      exact absurd hp List.not_mem_nil
    · rw [ht] at hp
      rcases mem_assign (c := c) (by simpa using hp) with rfl | hc
      · exact hkv
      · refine hst p ?_
        rw [List.getD_eq_getElem?_getD, ht]
        exact hc
  · exact Run.Keeps.throw _

/-- **The entries of a table are pairs of what follows each other** in the list
it is made from. -/
theorem setEntries_entries (i : ℕ) (hnil : ∀ k, P (k, .nil)) : ∀ data : List (Value (Point ω)),
    (∀ (j : ℕ) (k v : Value (Point ω)), data[2 * j]? = some k → data[2 * j + 1]? = some v →
      P (k, v)) →
    Run.Keeps (Entries i P) (setEntries i data : Run (UnpackState ω τ) BoxError Unit)
  | [], _ => Run.Keeps.pure ()
  | [k], _ => setEntry_entries i (hnil k)
  | k :: v :: data, hP => (setEntry_entries i (hP 0 k v rfl rfl)).bind
      (fun _ => setEntries_entries i hnil data (fun j k' v' hk hv => hP (j + 1) k' v'
        (by rwa [Nat.mul_succ]) (by rwa [Nat.mul_succ])))

/-! ## Decoding -/

/-- **An entry of a table**: a key that has no value, or two elements in a row,
and what they denote. -/
def Entry (A : Arith) (R : Receiver ω τ) (W : τ) (elements : List Bytes)
    (p : Value (Point ω) × Value (Point ω)) : Prop :=
  p.2 = .nil ∨ ∃ (j : ℕ) (x y : Bytes), elements[2 * j]? = some x
    ∧ elements[2 * j + 1]? = some y ∧ Denotes A R W x p.1 ∧ Denotes A R W y p.2

omit [DecidableEq ω] in
/-- What an element of the list has become. -/
theorem exists_of_forall₂ {α β : Type} {D : α → β → Prop} {l : List α} {l' : List β}
    (h : List.Forall₂ D l l') {k : ℕ} {b : β} (hb : l'[k]? = some b) :
    ∃ a, l[k]? = some a ∧ D a b := by
  induction h generalizing k with
  | nil => cases hb
  | cons hd _ ih =>
    cases k with
    | zero =>
      obtain rfl := Option.some.inj hb
      exact ⟨_, rfl, hd⟩
    | succ k => exact ih hb

/-- **The entries of a table that was just made** are set from what its
elements denote. -/
theorem setEntries_denoted {i : ℕ} (hi : before.length ≤ i) {elements : List Bytes}
    {data : List (Value (Point ω))} (hdata : List.Forall₂ (Denotes A R W) elements data) (n : ℕ) :
    Run.Keeps (fun st => Building W before st ∧ Entries i (Entry A R W elements) st)
      (setEntries i (data.take n)) := by
  have htake : ∀ {m : ℕ} {v : Value (Point ω)}, (data.take n)[m]? = some v →
      data[m]? = some v := fun h => by
    rw [List.getElem?_take] at h
    split_ifs at h
    exact h
  refine (setEntries_building hi _).and
    (setEntries_entries _ (fun _ => Or.inl rfl) _ (fun j k v hk hv => ?_))
  obtain ⟨x, hx, hxk⟩ := exists_of_forall₂ hdata (htake hk)
  obtain ⟨y, hy, hyv⟩ := exists_of_forall₂ hdata (htake hv)
  exact Or.inr ⟨j, x, y, hx, hy, hxk, hyv⟩

variable {fuel : ℕ} {buf : Bytes}

/-- **A table is decoded** from its elements. -/
theorem doUnpack_table_building
    (hup : ∀ x (before : List (List (Value (Point ω) × Value (Point ω)))),
      (∃ elements, readtoc A fuel buf () = .ok elements () ∧ x ∈ elements) →
      Run.Triple (Building W before) (doUnpack A R fuel x)
        (fun v st => Building W before st ∧ Denotes A R W x v) (fun _ => Building W before))
    (hst : Building W before st) :
    Run.Triple (· = st) (doUnpack A R (fuel + 1) (84 :: buf))
      (fun v st' => Building W before st' ∧ v = .ref (.table st.store.tables.length)
        ∧ ∃ elements, readtoc A fuel buf () = .ok elements ()
          ∧ Entries st.store.tables.length (Entry A R W elements) st')
      (fun _ => Building W before) := by
  have hkeep : ∀ {st' : UnpackState ω τ}, Building W (st.store.tables ++ [[]]) st' →
      Building W before st' := fun h => h.mono (hst.tables.trans (List.prefix_append _ _))
  have hkeep' : ∀ {st' : UnpackState ω τ}, Building W st.store.tables st' →
      Building W before st' := fun h => h.mono hst.tables
  intro st' hst'
  obtain rfl := Eq.symm hst'
  rw [doUnpack_table]
  suffices hrun : Run.Triple (Building W (st.store.tables ++ [[]]))
      (readtoc A fuel buf >>= fun elements =>
        Run.mapList (doUnpack A R fuel) elements >>= fun data =>
        setEntries st.store.tables.length (data.take (R.border data)) >>= fun _ =>
        note (fun st' => .built st.store.tables.length
          (st'.store.tables.getD st.store.tables.length [])) >>= fun _ =>
        pure (Value.ref (Point.table st.store.tables.length)))
      (fun v st' => Building W before st' ∧ v = Value.ref (Point.table st.store.tables.length)
        ∧ ∃ elements, readtoc A fuel buf () = .ok elements ()
          ∧ Entries st.store.tables.length (Entry A R W elements) st')
      (fun _ => Building W before) from hrun _ hst.enterTable
  refine Run.Triple.bind ((readtoc_triple (Building W (st.store.tables ++ [[]])) A fuel buf).weaken
    (fun _ h => h) (fun _ _ h => h) (fun _ _ h => hkeep h)) (fun elements => ?_)
  by_cases hread : readtoc A fuel buf () = .ok elements ()
  case neg => exact fun _ h => absurd h.2 hread
  refine Run.Triple.bind (((Run.Triple.mapList (D := Denotes A R W)
    (fun x hx => hup x _ ⟨elements, hread, hx⟩)).weaken (fun _ h => h.1) (fun _ _ h => h)
    (fun _ _ h => hkeep h))) (fun data => ?_)
  by_cases hdata : List.Forall₂ (Denotes A R W) elements data
  case neg => exact fun _ h => absurd h.2 hdata
  -- the table is empty until its entries are set
  have hentries : Run.Keeps (fun st' => Building W st.store.tables st'
      ∧ Entries st.store.tables.length (Entry A R W elements) st')
      (setEntries st.store.tables.length (data.take (R.border data))) :=
    setEntries_denoted le_rfl hdata _
  refine (hentries.weaken (fun st' h => ⟨h.1.mono (List.prefix_append _ _), fun p hp => ?_⟩)
    (fun _ _ h => h) (fun _ _ h => hkeep' h.1)).bind (fun _ => ?_)
  · obtain ⟨more, hmore⟩ := h.1.tables
    rw [List.getD_eq_getElem?_getD, ← hmore, List.getElem?_append_left (by simp)] at hp
    simp at hp
  · exact fun st' h => ⟨hkeep' ⟨h.1.world, h.1.tables, h.1.refs⟩, rfl, elements, hread, h.2⟩

/-- **Decoding a message that loads nothing.** -/
theorem doUnpack_building (hbuf : Inert A buf) :
    Run.Triple (Building W before) (doUnpack A R fuel buf)
      (fun v st => Building W before st ∧ Denotes A R W buf v) (fun _ => Building W before) := by
  induction fuel generalizing buf before with
  | zero => exact fun _ _ => trivial
  | succ fuel ih =>
    have hself := hbuf buf (.self buf)
    by_cases hT : buf.head? = some 84
    · obtain ⟨b, rfl⟩ := List.head?_eq_some_iff.mp hT
      intro st hst
      refine (doUnpack_table_building (fun x before' ⟨elements, hread, hx⟩ =>
        ih (fun y hy => hbuf y (.table hread hx hy))) hst).weaken
          (fun _ h => h) (fun v st' h => ?_) (fun _ _ h => h) st rfl
      obtain ⟨hst', rfl, -⟩ := h
      exact ⟨hst', denotes_of_table (Or.inl rfl) _⟩
    · unfold doUnpack
      split
      · next heq => exact absurd heq (Nat.succ_ne_zero _)
      · exact Run.Triple.throw (fun _ h => h)
      · exact Run.Triple.pure (fun _ h => ⟨h, ⟨nofun, nofun, nofun⟩⟩)
      · exact Run.Triple.pure (fun _ h => ⟨h, ⟨nofun, nofun, nofun⟩⟩)
      · exact Run.Triple.pure (fun _ h => ⟨h, ⟨nofun, nofun, nofun⟩⟩)
      · exact Run.Triple.bind (Run.Keeps.assertSome _ _) (fun _ => Run.Triple.pure
          (fun _ h => ⟨h, ⟨nofun, nofun, nofun⟩⟩))
      · exact Run.Triple.pure (fun _ h => ⟨h, ⟨nofun, fun s hs => by cases hs; rfl, nofun⟩⟩)
      · exact unpackR_building _
      · exact unpackO_building _
      · exact absurd rfl hT
      · exact absurd rfl hself
      · exact Run.Triple.throw (fun _ h => h)

/-! ## Messages -/

/-- **The element `y` stands behind the key `s`** in the table that `buf` is. -/
def StandsBehind (A : Arith) (buf s y : Bytes) : Prop :=
  ∃ (fuel : ℕ) (b : Bytes) (elements : List Bytes) (j : ℕ), buf = 84 :: b
    ∧ readtoc A fuel b () = .ok elements () ∧ elements[2 * j]? = some (83 :: s)
    ∧ elements[2 * j + 1]? = some y

/-- A key that has a value has it in one of the entries. -/
theorem mem_of_rawget {β : Type} [DecidableEq β] {c : List (Value β × Value β)} {k v : Value β}
    (h : rawget c k = v) (hv : v ≠ .nil) : (k, v) ∈ c := by
  induction c with
  | nil => exact absurd h.symm hv
  | cons p c ih =>
    rw [rawget_cons] at h
    split_ifs at h with hp
    · rw [← hp, ← h]
      exact List.mem_cons_self
    · exact List.mem_cons_of_mem p (ih h)

/-- Nothing can be referred back to where nothing has been built. -/
theorem doUnpack_ref_nil (b : Bytes) (store : Store ω τ) :
    doUnpack A R (fuel + 1) (82 :: b) ⟨[], store, []⟩
      = .error (.invalidBackreference b) ⟨[], store, []⟩ := by
  have hnone : (A.index b).bind (entryAt ([] : List (Value (Point ω)))) = none := by
    refine Option.bind_eq_none_iff.mpr (fun n _ => ?_)
    unfold entryAt
    split
    · split_ifs <;> rfl
    · rfl
  show (Run.assertSome ((A.index b).bind (entryAt [])) _ >>= _) _ = _
  rw [hnone]
  rfl

/-- **What decoding a message that loads nothing leaves**: the rest of the
receiver's memory as it was, and an object under a key only if its id stands
there. -/
theorem unpack_inert (hbuf : Inert A buf) (store : Store ω τ) :
    Run.Triple (· = ⟨[], store, []⟩) (doUnpack A R fuel buf)
      (fun v st => st.store.world = store.world ∧ ∀ i s o, v = .ref (.table i) →
        rawget (st.store.tables.getD i []) (.string s) = .ref (.object o) →
          ∃ n, StandsBehind A buf s (79 :: n) ∧ R.named A store.world n = some o)
      (fun _ st => st.store.world = store.world) := by
  rintro _ rfl
  -- nothing is decoded yet, so every table is one that was there before
  have hst : Building store.world store.tables (⟨[], store, []⟩ : UnpackState ω τ) :=
    ⟨rfl, List.prefix_rfl, fun _ hv => absurd hv List.not_mem_nil⟩
  have hall : Run.Triple (Building store.world store.tables) (doUnpack A R fuel buf) _ _ :=
    doUnpack_building hbuf
  rcases hx : doUnpack A R fuel buf ⟨[], store, []⟩ with ⟨v, st⟩ | ⟨e, st⟩ | _
  · obtain ⟨hbuilding, hdenotes⟩ := hall.ok hst hx
    refine ⟨hbuilding.world, fun i s o hv ho => ?_⟩
    obtain ⟨fuel, rfl⟩ := Nat.exists_eq_succ_of_ne_zero (fun h0 : fuel = 0 => by
      rw [h0] at hx
      cases hx)
    rcases hdenotes.table i hv with hT | hR
    · obtain ⟨b, rfl⟩ := List.head?_eq_some_iff.mp hT
      obtain ⟨-, hi, elements, hread, hentries⟩ := (doUnpack_table_building
        (fun x _ ⟨elements, hread, hmem⟩ => doUnpack_building (fun y hy =>
          hbuf y (.table hread hmem hy))) hst).ok rfl hx
      rw [hv] at hi
      cases hi
      rcases hentries _ (mem_of_rawget ho nofun) with hnil | ⟨j, x, y, hxj, hyj, hkey, hvalue⟩
      · cases hnil
      · obtain ⟨n, rfl, hn⟩ := hvalue.object o rfl
        obtain rfl := hkey.string s rfl
        exact ⟨n, ⟨fuel, b, elements, j, rfl, hread, hxj, hyj⟩, hn⟩
    · obtain ⟨b, rfl⟩ := List.head?_eq_some_iff.mp hR
      rw [doUnpack_ref_nil] at hx
      cases hx
  · exact (Run.Triple.error hall hst hx).world
  · trivial

/-- A table of contents of elements that are no tables and no call objects
loads nothing. -/
theorem inert_of_isToc {b : Bytes} {elements : List Bytes} (hA : A.Exact (b.length + 1))
    (htoc : IsToc b elements)
    (helements : ∀ x ∈ elements, x.head? ≠ some 84 ∧ x.head? ≠ some 67) : Inert A (84 :: b) := by
  have hleaf : ∀ x y, Reads A x y → x.head? ≠ some 84 ∧ x.head? ≠ some 67 →
      y.head? ≠ some 67 := fun x y hy hx => by
    cases hy with
    | self _ => exact hx.2
    | table _ _ _ => exact absurd rfl hx.1
    | call _ _ _ => exact absurd rfl hx.2
  intro y hy
  cases hy with
  | self _ => exact fun h => by cases h
  | @table fuel _ x _ elements' hread hx hy =>
    obtain rfl := eq_of_readtoc hA htoc hread
    exact hleaf x y hy (helements x hx)

end Elements

end Box

end Felt
