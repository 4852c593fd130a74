import Felt.Box.Contents
import Felt.Box.Exchange
import Felt.Box.Lockstep

/-!
# Flat tables

A message with nothing in it but scalars and objects that are written as their
ids is one table, whose elements stand behind each other as texts of their own
(`pack_flat`). An object that is packed for the first time records its id and
asks to be packed again, and is written as its id then, like one that the
receiver was known to have.

A receiver that has all the objects answers a new table with the same pairs
(`unpack_flat`); one that has not raises an error, and has made the table
(`unpack_flat_error`).

Messages of this kind need no simulation. Their text can be written down, and
reading it back is a computation element by element, so that the state the
decoder ends in is known as well: one table more, and nothing else. This is what
a request of a client looks like (`Felt.Client.Click`).
-/

namespace Felt

namespace Box

variable {α ω τ : Type}

/-- What is written for an element. -/
def flatText (ident : α → ℕ) : Value α → Bytes
  | .ref a => bytes "O" ++ decimal (ident a)
  | v => (scalarText v).getD []

/-- **An element of a flat table**: a scalar that is not taken for the counter,
or an object that records its id. -/
def IsFlat (G : Graph α) (ident : α → ℕ) (root : α) : Value α → Prop
  | .ref a => a ≠ root ∧ G a = .object (.pack (some (ident a)) (.ref a))
  | v => v ≠ .string counterName ∧ scalarText v ≠ none

/-- **The table of known objects** has objects under their ids. -/
structure Records (ident : α → ℕ) (root : α) (objs : α → Option ℕ) : Prop where
  /-- The message is no object. -/
  root : objs root = none
  /-- An object is under its id, if it is there. -/
  ident : ∀ a id, objs a = some id → id = ident a

section Pack

variable [DecidableEq α] {G : Graph α} {ident : α → ℕ} {root : α} {t : Table α}

/-- What the elements are packed in. -/
structure Within (ident : α → ℕ) (root : α) (st : PackState α) : Prop where
  /-- Nothing but the message has an index. -/
  index : ∀ a, a ≠ root → st.refs.index a = none
  /-- The table of known objects. -/
  objs : ∃ objs, st.objs = some objs ∧ Records ident root objs

theorem Within.record {st : PackState α} (h : Within ident root st) {a : α} (ha : a ≠ root) :
    ∃ st', st.record a (ident a) = some st' ∧ Within ident root st'
      ∧ st'.knownId (.ref a) = some (ident a) := by
  obtain ⟨objs, hobjs, hrecords⟩ := h.objs
  refine ⟨{ st with objs := some (Function.update objs a (some (ident a))) }, ?_,
    ⟨h.index, _, rfl, ?_, fun b id hb => ?_⟩, ?_⟩
  · rw [PackState.record, hobjs]
    rfl
  · rw [Function.update_of_ne ha.symm]
    exact hrecords.root
  · by_cases hba : b = a
    · rw [hba, Function.update_self] at hb
      exact hba ▸ (Option.some.inj hb).symm
    · rw [Function.update_of_ne hba] at hb
      exact hrecords.ident b id hb
  · exact Function.update_self _ _ _

/-- **An element is written as its text**, whatever is known already. -/
theorem doPack_flat {x : Value α} (hx : IsFlat G ident root x) (fuel : ℕ) {st : PackState α}
    (h : Within ident root st) :
    ∃ st', doPack G (fuel + 2) x st = .ok (flatText ident x) st' ∧ Within ident root st' := by
  cases x with
  | ref a =>
    obtain ⟨hne, hG⟩ := hx
    have hknown : ∀ {st' : PackState α} (f : ℕ), Within ident root st' →
        st'.knownId (.ref a) = some (ident a) →
        doPack G (f + 1) (.ref a) st' = .ok (flatText ident (.ref a)) st' := fun f h' hid => by
      rw [doPack, Run.get_bind]
      simp only [show (Refs.lookup _ (Value.ref a)) = none from h'.index a hne, hid]
      rfl
    obtain ⟨objs, hobjs, hrecords⟩ := h.objs
    have hid : st.knownId (.ref a) = objs a := by
      rw [PackState.knownId, hobjs]
      rfl
    rcases ho : objs a with _ | id
    · -- it records its id, and is packed again
      obtain ⟨st', hst', hwithin, hid'⟩ := h.record hne
      refine ⟨st', ?_, hwithin⟩
      rw [doPack, Run.get_bind]
      simp only [show (Refs.lookup _ (Value.ref a)) = none from h.index a hne, hid.trans ho, hG]
      show (Run.get >>= fun st => Run.assertSome (st.record a (ident a)) _ >>= fun st' =>
        Run.modify (fun _ => st') >>= fun _ => doPack G (fuel + 1) (.ref a)) st = _
      rw [Run.get_bind, hst', Run.bind_of_ok (Run.assertSome_some _ _ _), Run.modify_bind]
      exact hknown fuel hwithin hid'
    · obtain rfl := hrecords.ident a id ho
      exact ⟨st, hknown (fuel + 1) h (hid.trans ho), h⟩
  | string s =>
    refine ⟨st, ?_, h⟩
    have hs : s ≠ counterName := fun hs => hx.1 (congrArg _ hs)
    rw [doPack, Run.get_bind]
    simp only [show (Refs.lookup _ (Value.string s : Value α)) = none from if_neg hs,
      show (PackState.knownId _ (Value.string s : Value α)) = none from rfl]
    rfl
  | nil => exact ⟨st, rfl, h⟩
  | boolean b => exact ⟨st, rfl, h⟩
  | number n => exact ⟨st, rfl, h⟩
  | foreign type => exact absurd rfl hx.2

theorem mapList_flat {l : List (Value α)} (hl : ∀ x ∈ l, IsFlat G ident root x) (fuel : ℕ)
    {st : PackState α} (h : Within ident root st) :
    ∃ st', Run.mapList (doPack G (fuel + 2)) l st = .ok (l.map (flatText ident)) st'
      ∧ Within ident root st' := by
  induction l generalizing st with
  | nil => exact ⟨st, rfl, h⟩
  | cons x l ih =>
    obtain ⟨st₁, hx, h₁⟩ := doPack_flat (hl x List.mem_cons_self) fuel h
    obtain ⟨st₂, hrest, h₂⟩ := ih (fun y hy => hl y (List.mem_cons_of_mem x hy)) h₁
    exact ⟨st₂, Run.mapList_cons_eq_ok.mpr ⟨_, _, _, hx, hrest, rfl⟩, h₂⟩

/-- **A flat table is written as the texts of its elements.** -/
theorem pack_flat (hG : G root = .table t) (ht : ∀ x ∈ t.elements, IsFlat G ident root x)
    {objs : α → Option ℕ} (hobjs : Records ident root objs) (fuel : ℕ) :
    ∃ st', pack G (some objs) (fuel + 3) (.ref root)
      = .ok (withToc (bytes "T") (t.elements.map (flatText ident))) st'
        ∧ Within ident root st' := by
  have hwithin : Within ident root ((⟨.initial, some objs⟩ : PackState α).mark root) := by
    refine ⟨fun a ha => ?_, objs, rfl, hobjs⟩
    show Function.update (fun _ => none) root _ a = none
    rw [Function.update_of_ne ha]
  obtain ⟨st', hdata, h'⟩ := mapList_flat ht fuel hwithin
  refine ⟨st', ?_, h'⟩
  rw [pack, doPack, Run.get_bind]
  simp only [show (Refs.lookup Refs.initial (Value.ref root)) = none from rfl,
    show (PackState.knownId ⟨.initial, some objs⟩ (Value.ref root)) = none from hobjs.root, hG]
  rw [packTable, Run.modify_bind, Run.bind_of_ok hdata]
  rfl

end Pack

section Unpack

variable [DecidableEq ω] {G : Graph α} {ident : α → ℕ} {root : α} {R : Receiver ω τ}
  {ust : UnpackState ω τ}

omit [DecidableEq ω] in
theorem unpackO_of_entry {id : ℕ} {o : ω} (ho : R.entry ust.store.world id = some o) :
    unpackO .ideal R (decimal id) ust = .ok (.ref (.object o)) ust := by
  obtain ⟨objs, hR, hobjs⟩ := Option.bind_eq_some_iff.mp ho
  rw [unpackO, Run.get_bind, hR, Run.bind_of_ok (Run.assertSome_some _ _ _),
    Arith.ideal_index_decimal, Option.bind_some, hobjs]
  rfl

omit [DecidableEq ω] in
theorem unpackO_error (hobjs : R.objs ≠ none) {id : ℕ}
    (hnone : R.entry ust.store.world id = none) :
    unpackO .ideal R (decimal id) ust = .error (.invalidObjectReference (decimal id)) ust := by
  obtain ⟨objs, hR⟩ := Option.ne_none_iff_exists'.mp hobjs
  have hentry : objs ust.store.world (.fin id) = none := by
    rw [Receiver.entry, hR] at hnone
    exact hnone
  rw [unpackO, Run.get_bind, hR, Run.bind_of_ok (Run.assertSome_some _ _ _),
    Arith.ideal_index_decimal, Option.bind_some, hentry]
  rfl

/-- **An element is read back**, if the receiver has it. -/
theorem doUnpack_flat {φ : α → ω} {x : Value α} (hx : IsFlat G ident root x)
    (hφ : ∀ a, x = .ref a → R.entry ust.store.world (ident a) = some (φ a)) (fuel : ℕ) :
    doUnpack .ideal R (fuel + 1) (flatText ident x) ust
      = .ok (decode (fun a => .object (φ a)) x) ust := by
  cases x with
  | ref a =>
    show unpackO .ideal R (decimal (ident a)) ust = _
    exact unpackO_of_entry (hφ a rfl)
  | nil => rfl
  | boolean b => cases b <;> rfl
  | number n =>
    obtain ⟨m, hm, -⟩ := Number.exists_tonumber_tostring n
    show unpackN n.tostring ust = _
    rw [unpackN, hm, Run.bind_of_ok (Run.assertSome_some _ _ _)]
    show Outcome.ok (Value.number m) ust = .ok (.number n.reread) ust
    rw [Number.reread_of_tonumber hm]
  | string s => rfl
  | foreign type => exact absurd rfl hx.2

/-- An object the receiver does not have is an error. -/
theorem doUnpack_flat_error (hobjs : R.objs ≠ none) {a : α}
    (ha : R.entry ust.store.world (ident a) = none) (fuel : ℕ) :
    doUnpack .ideal R (fuel + 1) (flatText ident (.ref a)) ust
      = .error (.invalidObjectReference (decimal (ident a))) ust :=
  unpackO_error hobjs ha

theorem mapList_doUnpack_flat {φ : α → ω} {l : List (Value α)}
    (hl : ∀ x ∈ l, IsFlat G ident root x)
    (hφ : ∀ a, .ref a ∈ l → R.entry ust.store.world (ident a) = some (φ a)) (fuel : ℕ) :
    Run.mapList (doUnpack .ideal R (fuel + 1)) (l.map (flatText ident)) ust
      = .ok (l.map (decode (fun a => .object (φ a)))) ust := by
  induction l with
  | nil => rfl
  | cons x l ih =>
    refine Run.mapList_cons_eq_ok.mpr ⟨_, ust, _, doUnpack_flat (hl x List.mem_cons_self)
      (fun a ha => hφ a (ha ▸ List.mem_cons_self)) fuel,
      ih (fun y hy => hl y (List.mem_cons_of_mem x hy))
        (fun a ha => hφ a (List.mem_cons_of_mem x ha)), rfl⟩

/-- **One object that is missing** is enough. -/
theorem mapList_doUnpack_flat_error (hobjs : R.objs ≠ none) {l : List (Value α)}
    (hl : ∀ x ∈ l, IsFlat G ident root x) {a : α} (ha : .ref a ∈ l)
    (hnone : R.entry ust.store.world (ident a) = none) (fuel : ℕ) :
    ∃ e, Run.mapList (doUnpack .ideal R (fuel + 1)) (l.map (flatText ident)) ust
      = .error e ust := by
  induction l with
  | nil => cases ha
  | cons x l ih =>
    rw [List.map_cons, Run.mapList_cons]
    by_cases hx : ∃ b, x = .ref b ∧ R.entry ust.store.world (ident b) = none
    · obtain ⟨b, rfl, hb⟩ := hx
      exact ⟨_, Run.bind_of_error (doUnpack_flat_error hobjs hb fuel)⟩
    · -- `x` is read, and what is missing is behind it
      have hrest : .ref a ∈ l := (List.mem_cons.mp ha).resolve_left
        (fun heq => hx ⟨a, heq.symm, hnone⟩)
      obtain ⟨e, he⟩ := ih (fun y hy => hl y (List.mem_cons_of_mem x hy)) hrest
      obtain ⟨v, hv⟩ : ∃ v, doUnpack .ideal R (fuel + 1) (flatText ident x) ust = .ok v ust := by
        cases x with
        | ref b =>
          obtain ⟨o, ho⟩ := Option.ne_none_iff_exists'.mp (fun hb => hx ⟨b, rfl, hb⟩)
          exact ⟨_, doUnpack_flat (φ := fun _ => o) (hl _ List.mem_cons_self)
            (fun c hc => by rw [← Value.ref.inj hc, ho]) fuel⟩
        | nil => exact ⟨_, rfl⟩
        | boolean b => exact ⟨.boolean b, by cases b <;> rfl⟩
        | string s => exact ⟨_, rfl⟩
        | number n =>
          obtain ⟨m, hm, -⟩ := Number.exists_tonumber_tostring n
          refine ⟨.number m, ?_⟩
          show unpackN n.tostring ust = _
          rw [unpackN, hm]
          rfl
        | foreign type => exact absurd rfl (hl _ List.mem_cons_self).2
      exact ⟨e, by rw [Run.bind_of_ok hv, Run.bind_of_error he]⟩

omit [DecidableEq ω] in
/-- The elements of a table are what stands for its pairs. -/
theorem map_decode_elements (φ : α → Point ω) (t : Table α) :
    t.elements.map (decode φ)
      = (t.pairs.map (fun p => (decode φ p.1, decode φ p.2))).flatMap (fun p => [p.1, p.2]) := by
  unfold Table.elements
  rw [List.map_flatMap, List.flatMap_map]
  rfl

omit [DecidableEq ω] in
/-- A key is read back as a key. -/
theorem isKey_decode (φ : α → Point ω) {v : Value α} (hv : v.IsKey) : (decode φ v).IsKey := by
  cases v with
  | number n =>
    obtain ⟨m, hm, hnan⟩ := Number.exists_tonumber_tostring n
    have hn : ∀ s, n ≠ .nan s := fun s hs => by
      subst hs
      exact hv
    show (Value.number n.reread).IsKey
    rw [Number.reread_of_tonumber hm]
    cases hmc : m with
    | nan s => exact absurd hmc (hnan hn s)
    | inf s => trivial
    | fin q => trivial
  | _ => exact hv

/-- **A flat table is read back as a new table** with the same pairs, if the
receiver has all its objects. -/
theorem unpack_flat {t : Table α} {φ : α → ω} {s : Store ω τ}
    (ht : ∀ x ∈ t.elements, IsFlat G ident root x)
    (hφ : ∀ a, .ref a ∈ t.elements → R.entry s.world (ident a) = some (φ a)) {fuel : ℕ}
    (hfuel : t.elements.length ≤ fuel) :
    ∃ ust, unpack .ideal R (fuel + 2) (withToc (bytes "T") (t.elements.map (flatText ident))) s
        = .ok (.ref (.table s.tables.length)) ust
      ∧ ust.store = { s with tables := s.tables ++ [fromPairs (t.pairs.map (fun p =>
        (decode (fun a => .object (φ a)) p.1, decode (fun a => .object (φ a)) p.2)))] } := by
  set ps := t.pairs.map (fun p =>
    (decode (fun a => Point.object (φ a)) p.1, decode (fun a => .object (φ a)) p.2)) with hps
  have hkeys : ∀ q ∈ ps, q.1.IsKey ∧ q.2 ≠ .nil := fun q hq => by
    obtain ⟨p, hp, rfl⟩ := List.mem_map.mp hq
    exact ⟨isKey_decode _ (t.isKey p hp), decode_ne_nil _ (t.value_ne_nil p hp)⟩
  have hnil : ∀ w ∈ ps.flatMap (fun p => [p.1, p.2]), w ≠ .nil := fun w hw => by
    obtain ⟨q, hq, hwq⟩ := List.mem_flatMap.mp hw
    rcases List.mem_pair.mp hwq with rfl | rfl
    · intro hn
      have hkey := (hkeys q hq).1
      rw [hn] at hkey
      exact hkey
    · exact (hkeys q hq).2
  have hdata : Run.mapList (doUnpack .ideal R (fuel + 1)) (t.elements.map (flatText ident))
      (⟨[], s, []⟩ : UnpackState ω τ).enterTable = _ := mapList_doUnpack_flat ht hφ fuel
  rw [map_decode_elements, ← hps] at hdata
  show ∃ ust, doUnpack .ideal R (fuel + 1 + 1) (84 :: (maketoc (t.elements.map (flatText ident))
    ++ (t.elements.map (flatText ident)).flatten)) (⟨[], s, []⟩ : UnpackState ω τ) = _ ∧ _
  rw [doUnpack_table, Run.bind_of_ok (readtoc_maketoc _ (by rw [List.length_map]; omega) _),
    Run.bind_of_ok hdata, (R.isBorder _).eq_length hnil, List.take_length,
    Run.bind_of_ok (setEntries_pairs (fun q hq => (hkeys q hq).1) _), note, Run.modify_bind]
  refine ⟨_, rfl, ?_⟩
  -- the table is the last one
  have htables : (s.tables ++ [[]]).modify s.tables.length
      (fun c => ps.foldl (fun c (p : Value (Point ω) × Value (Point ω)) => assign p.1 p.2 c) c)
        = s.tables ++ [fromPairs ps] :=
    List.modifyTailIdx_add (List.modifyHead _) 0 s.tables [[]]
  exact congrArg (fun tables => { s with tables := tables }) htables

/-- **Without one of its objects** it is an error, and the world is as it was. -/
theorem unpack_flat_error (hobjs : R.objs ≠ none) {t : Table α} {s : Store ω τ}
    (ht : ∀ x ∈ t.elements, IsFlat G ident root x) {a : α} (ha : .ref a ∈ t.elements)
    (hnone : R.entry s.world (ident a) = none) {fuel : ℕ} (hfuel : t.elements.length ≤ fuel) :
    ∃ e ust, unpack .ideal R (fuel + 2)
        (withToc (bytes "T") (t.elements.map (flatText ident))) s = .error e ust
      ∧ ust.store.world = s.world := by
  obtain ⟨e, he⟩ : ∃ e, Run.mapList (doUnpack .ideal R (fuel + 1))
      (t.elements.map (flatText ident)) (⟨[], s, []⟩ : UnpackState ω τ).enterTable = .error e _ :=
    mapList_doUnpack_flat_error hobjs ht ha hnone fuel
  show ∃ e ust, doUnpack .ideal R (fuel + 1 + 1) (84 :: (maketoc (t.elements.map (flatText ident))
    ++ (t.elements.map (flatText ident)).flatten)) (⟨[], s, []⟩ : UnpackState ω τ) = _ ∧ _
  rw [doUnpack_table, Run.bind_of_ok (readtoc_maketoc _ (by rw [List.length_map]; omega) _),
    Run.bind_of_error he]
  exact ⟨e, _, rfl, rfl⟩

end Unpack

end Box

end Felt
