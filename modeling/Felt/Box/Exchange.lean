import Felt.Box.Message
import Felt.Box.Unpack
import Felt.Lua.Numeral

/-!
# What a sender and a receiver agree on

A message is packed against the sender's tables and unpacked against the
receiver's. This module says what the one side takes for granted of the other
(`Exchange`), and when a value the receiver has stands for a value the sender
had (`Decodes`).

The receiver's `__unpack` may do to memory what Lua code can do: change the
tables it can get hold of, and make new ones. What it can get hold of is what
it was given, what the receiver holds already, and what is reachable from
there. `Confined` says just that, for any enclosure of tables that has all of
these – so an `__unpack` that keeps the tables of its constructor, and changes
them, is covered.

The relation between a value here and a value there goes by the two states. A
table stands for the table the decoder has under its index, an object that goes
by its id for the receiver's own object, and an object that was rebuilt for what
`__unpack` has answered. States only grow, so that what stands for something
keeps standing for it (`Decodes.mono`); this is what the induction along a
message rests on.
-/

namespace Felt

namespace Box

variable {α ω τ : Type}

/-- The entry of the receiver's table of objects under an id. -/
def Receiver.entry (R : Receiver ω τ) (world : τ) (id : ℕ) : Option ω :=
  R.objs.bind (fun objs => objs world (.fin id))

/-! ## What the receiver's code may touch -/

/-- **An enclosure**: a set of tables that do not refer to a table outside,
with everything the receiver holds in it. -/
structure Encloses (held : τ → Set ℕ) (store : Store ω τ) (C : Set ℕ) : Prop where
  /-- It is a set of tables there are. -/
  lt : ∀ i ∈ C, i < store.tables.length
  /-- No reference leaves it. -/
  closed : ∀ i ∈ C, ∀ c, store.tables[i]? = some c → ∀ p ∈ c, ∀ j,
    p.1 = .ref (.table j) ∨ p.2 = .ref (.table j) → j ∈ C
  /-- What the receiver holds is inside. -/
  held : held store.world ⊆ C

/-- The tables made between two states of the memory. -/
def newTables (store store' : Store ω τ) : Set ℕ :=
  {i | store.tables.length ≤ i ∧ i < store'.tables.length}

/-- **`store'` comes from `store` by code enclosed in `C`.** -/
structure KeepsTo (held : τ → Set ℕ) (C : Set ℕ) (store store' : Store ω τ) : Prop where
  /-- No table disappears. -/
  length_le : store.tables.length ≤ store'.tables.length
  /-- The tables outside are as they were. -/
  same : ∀ i < store.tables.length, i ∉ C → store'.tables[i]? = store.tables[i]?
  /-- With the new tables it is an enclosure again. -/
  encloses : Encloses held store' (C ∪ newTables store store')

/-- **Code confined to what it can reach**: it keeps to every enclosure that
has what it was given. -/
def Confined {β : Type} (held : τ → Set ℕ) (f : Effect ω τ β) (given : Set ℕ) : Prop :=
  ∀ store C, Encloses held store C → given ⊆ C → KeepsTo held C store (f store).2

/-- The receiver's table of objects keeps its entries under `ids`. -/
def KeepsEntries {β : Type} (R : Receiver ω τ) (ids : Set ℕ) (f : Effect ω τ β) : Prop :=
  ∀ store, ∀ id ∈ ids, R.entry (f store).2.world id = R.entry store.world id

/-- **A type the receiver can rebuild**: its module is found, its `__unpack`
answers an object, and neither does more to the memory than Lua code can. -/
structure Receiver.Serves (R : Receiver ω τ) (held : τ → Set ℕ) (ids : Set ℕ)
    (type : Bytes) : Prop where
  /-- The module is found, with an `__unpack`. -/
  found : ∀ store, ∃ unpack, (R.require (.string type) store).1 = .ok (some unpack)
    ∧ ∀ arg, Confined held (unpack arg) {i | arg = .ref (.table i)}
      ∧ KeepsEntries R ids (unpack arg)
      ∧ ∀ store', ∃ o, (unpack arg store').1 = .ok (.ref (.object o))
  /-- Finding it is confined. -/
  confined : Confined held (R.require (.string type)) ∅
  /-- Finding it keeps the entries. -/
  keeps : KeepsEntries R ids (R.require (.string type))

theorem KeepsTo.trans {held : τ → Set ℕ} {C : Set ℕ} {s₁ s₂ s₃ : Store ω τ}
    (h₁ : KeepsTo held C s₁ s₂) (h₂ : KeepsTo held (C ∪ newTables s₁ s₂) s₂ s₃) :
    KeepsTo held C s₁ s₃ := by
  refine ⟨h₁.length_le.trans h₂.length_le, fun i hi hC => ?_, ?_⟩
  · rw [h₂.same i (hi.trans_le h₁.length_le), h₁.same i hi hC]
    rintro (h | h)
    · exact hC h
    · exact absurd h.1 (by omega)
  · have hset : C ∪ newTables s₁ s₂ ∪ newTables s₂ s₃ = C ∪ newTables s₁ s₃ := by
      have hl₁ := h₁.length_le
      have hl₂ := h₂.length_le
      ext i
      simp only [newTables, Set.mem_union, Set.mem_ofPred_eq]
      constructor
      · rintro ((h | h) | h)
        · exact Or.inl h
        · exact Or.inr ⟨h.1, by omega⟩
        · exact Or.inr ⟨by omega, h.2⟩
      · rintro (h | h)
        · exact Or.inl (Or.inl h)
        · by_cases hi : i < s₂.tables.length
          · exact Or.inl (Or.inr ⟨h.1, hi⟩)
          · exact Or.inr ⟨by omega, h.2⟩
    rw [← hset]
    exact h₂.encloses

/-- **What one peer sends another**: a message, and a receiver that has the
objects it names and can rebuild the others. -/
structure Exchange (α ω τ : Type) where
  /-- The sender's graph. -/
  graph : Graph α
  /-- The objects the sender knows the receiver to have. -/
  known : α → Prop
  /-- The graph is a message. -/
  isMessage : IsMessage graph known
  /-- The receiver. -/
  receiver : Receiver ω τ
  /-- The ids the sender may use. -/
  ids : Set ℕ
  /-- An object that records its id uses one of them. -/
  recorded : ∀ a id, ¬ known a → graph a = .object (.pack (some id) (.ref a)) → id ∈ ids
  /-- The receiver's object under each id. -/
  peer : ℕ → Option ω
  /-- There is one. -/
  peer_isSome : ∀ id ∈ ids, (peer id).isSome = true
  /-- The tables of the message that the receiver's objects hold. -/
  held : τ → Set ℕ
  /-- The receiver can rebuild what it is asked to. -/
  serves : ∀ a type ctor, ¬ known a → graph a = .object (.call (.string type) ctor) →
    receiver.Serves held ids type

/-! ## The entries of a table -/

section Entries

variable {β : Type} [DecidableEq β]

/-- What a table holds after its entries were assigned in order. -/
def fromPairs (ps : List (Value β × Value β)) : List (Value β × Value β) :=
  ps.foldl (fun c p => assign p.1 p.2 c) []

/-- An entry of a table is made of keys and values that were assigned. -/
theorem mem_assign {k v : Value β} {c : List (Value β × Value β)} {p : Value β × Value β}
    (h : p ∈ assign k v c) : p = (k, v) ∨ p ∈ c := by
  induction c with
  | nil =>
    unfold assign at h
    split at h
    · exact absurd h List.not_mem_nil
    · exact Or.inl (List.mem_singleton.mp h)
  | cons q c ih =>
    unfold assign at h
    split at h
    · split at h
      · exact Or.inr (List.mem_cons_of_mem q h)
      · rcases List.mem_cons.mp h with rfl | h
        · exact Or.inl rfl
        · exact Or.inr (List.mem_cons_of_mem q h)
    · rcases List.mem_cons.mp h with rfl | h
      · exact Or.inr List.mem_cons_self
      · exact (ih h).imp_right (List.mem_cons_of_mem q)

theorem mem_fromPairs {ps : List (Value β × Value β)} {p : Value β × Value β}
    (h : p ∈ fromPairs ps) : p ∈ ps := by
  induction ps using List.reverseRecOn with
  | nil => exact h
  | append_singleton ps q ih =>
    unfold fromPairs at h
    rw [List.foldl_concat] at h
    rcases mem_assign h with rfl | h
    · simp
    · exact List.mem_append_left _ (ih h)

theorem assign_of_notMem {k v : Value β} (hv : v ≠ .nil) {c : List (Value β × Value β)}
    (hk : k ∉ c.map Prod.fst) : assign k v c = c ++ [(k, v)] := by
  induction c with
  | nil => simp [assign, hv]
  | cons q c ih =>
    rw [List.map_cons, List.mem_cons, not_or] at hk
    simp [assign, Ne.symm hk.1, ih hk.2]

/-- **Pairs with different keys are the table they make.** -/
theorem fromPairs_eq_self {ps : List (Value β × Value β)} (hkeys : (ps.map Prod.fst).Nodup)
    (hvalues : ∀ p ∈ ps, p.2 ≠ .nil) : fromPairs ps = ps := by
  induction ps using List.reverseRecOn with
  | nil => rfl
  | append_singleton ps q ih =>
    rw [List.map_append, List.nodup_append] at hkeys
    have hps := ih hkeys.1 (fun p hp => hvalues p (List.mem_append_left _ hp))
    unfold fromPairs at hps ⊢
    rw [List.foldl_concat, hps]
    refine assign_of_notMem (hvalues q (by simp)) (fun hq => ?_)
    exact hkeys.2.2 _ hq _ (by simp) rfl

/-- The state with other contents of its tables. -/
def UnpackState.setTables (ust : UnpackState ω τ)
    (tables : List (List (Value (Point ω) × Value (Point ω)))) : UnpackState ω τ :=
  { ust with store := { ust.store with tables := tables } }

/-- Assigning pairs with proper keys to a table in memory. -/
theorem setEntries_pairs {i : ℕ} {ps : List (Value (Point ω) × Value (Point ω))}
    [DecidableEq ω] (hkeys : ∀ p ∈ ps, p.1.IsKey) (ust : UnpackState ω τ) :
    setEntries i (ps.flatMap (fun p => [p.1, p.2])) ust
      = .ok () (ust.setTables (ust.store.tables.modify i
          (fun c => ps.foldl (fun c p => assign p.1 p.2 c) c))) := by
  induction ps generalizing ust with
  | nil =>
    show Outcome.ok () ust = .ok () (ust.setTables (ust.store.tables.modify i id))
    rw [List.modify_id]
    rfl
  | cons p ps ih =>
    show (setEntry i p.1 p.2 >>= fun _ => setEntries i (ps.flatMap (fun p => [p.1, p.2]))) ust = _
    have hp := hkeys p List.mem_cons_self
    rw [setEntry, if_pos hp, Run.modify_bind, ih (fun q hq => hkeys q (List.mem_cons_of_mem p hq))]
    simp only [List.modify_modify_eq]
    rfl

end Entries

/-! ## Values that stand for each other -/

/-- What the receiver has under the index of a point. -/
def slotOf (st : PackState α) (ust : UnpackState ω τ) (a : α) : Option (Value (Point ω)) :=
  (st.refs.index a).bind (fun k => ust.refs[k - 1]?)

/-- **The receiver's `w` stands for the sender's `v`**: a scalar for what it
reads back as, a table or an object that was rebuilt for the one it was
rebuilt from, and an object with an id for its peer. -/
inductive Decodes (peer : ℕ → Option ω) (st : PackState α) (ust : UnpackState ω τ) :
    Value α → Value (Point ω) → Prop where
  /-- `nil` stands for itself. -/
  | nil : Decodes peer st ust .nil .nil
  /-- A boolean stands for itself. -/
  | boolean (b : Bool) : Decodes peer st ust (.boolean b) (.boolean b)
  /-- A number stands for those that are written as it is read. -/
  | number {n m : Number} (hm : Number.tonumber n.tostring = some m) :
      Decodes peer st ust (.number n) (.number m)
  /-- A string stands for itself. -/
  | string (s : Bytes) : Decodes peer st ust (.string s) (.string s)
  /-- What was rebuilt. -/
  | slot {a : α} {p : Point ω} (hslot : slotOf st ust a = some (.ref p)) :
      Decodes peer st ust (.ref a) (.ref p)
  /-- What has an id. -/
  | known {a : α} {id : ℕ} {o : ω} (hid : st.knownId (.ref a) = some id)
      (ho : peer id = some o) : Decodes peer st ust (.ref a) (.ref (.object o))

/-- **`ust'` extends `ust`**: what was rebuilt is still there. -/
structure UnpackState.Extends (ust ust' : UnpackState ω τ) : Prop where
  /-- A reference that was there. -/
  refs : ∀ (i : ℕ) (p : Point ω), ust.refs[i]? = some (Value.ref p) →
    ust'.refs[i]? = some (Value.ref p)
  /-- The history goes on. -/
  history : ust.history <+: ust'.history

theorem UnpackState.Extends.refl (ust : UnpackState ω τ) : ust.Extends ust :=
  ⟨fun _ _ h => h, List.prefix_refl _⟩

theorem UnpackState.Extends.trans {u₁ u₂ u₃ : UnpackState ω τ} (h₁ : u₁.Extends u₂)
    (h₂ : u₂.Extends u₃) : u₁.Extends u₃ :=
  ⟨fun i p h => h₂.refs i p (h₁.refs i p h), h₁.history.trans h₂.history⟩

variable {st st' : PackState α} {ust ust' : UnpackState ω τ} {peer : ℕ → Option ω}

theorem slotOf_mono (hst : st.Extends st') (hust : ust.Extends ust') {a : α} {p : Point ω}
    (h : slotOf st ust a = some (.ref p)) : slotOf st' ust' a = some (.ref p) := by
  obtain ⟨k, hk, hp⟩ := Option.bind_eq_some_iff.mp h
  exact Option.bind_eq_some_iff.mpr ⟨k, hst.index a k hk, hust.refs _ p hp⟩

theorem Decodes.mono (hst : st.Extends st') (hust : ust.Extends ust') {v : Value α}
    {w : Value (Point ω)} (h : Decodes peer st ust v w) : Decodes peer st' ust' v w := by
  cases h with
  | nil => exact .nil
  | boolean b => exact .boolean b
  | number hm => exact .number hm
  | string s => exact .string s
  | slot hslot => exact .slot (slotOf_mono hst hust hslot)
  | known hid ho => exact .known (hst.known _ _ hid) ho

/-- What can be a key stands for one. -/
theorem Decodes.isKey {v : Value α} {w : Value (Point ω)} (h : Decodes peer st ust v w)
    (hv : v.IsKey) : w.IsKey := by
  cases h with
  | nil => exact hv
  | boolean b => trivial
  | @number n m hm =>
    obtain ⟨m', hm', hnan⟩ := Number.exists_tonumber_tostring n
    obtain rfl := Option.some.inj (hm.symm.trans hm')
    have hn : ∀ s, n ≠ .nan s := fun s hs => by
      subst hs
      exact hv
    cases hmc : m with
    | nan s => exact absurd hmc (hnan hn s)
    | inf s => trivial
    | fin q => trivial
  | string s => trivial
  | slot hslot => trivial
  | known hid ho => trivial

theorem Decodes.ne_nil {v : Value α} {w : Value (Point ω)} (h : Decodes peer st ust v w)
    (hv : v ≠ .nil) : w ≠ .nil := by
  cases h with
  | nil => exact absurd rfl hv
  | _ => simp

/-- **What is in the history of a table or a call object that was rebuilt.** -/
inductive Rebuilt [DecidableEq ω] (G : Graph α) (peer : ℕ → Option ω) (st : PackState α)
    (ust : UnpackState ω τ) : α → Event ω → Prop where
  /-- A table got what stands for its pairs. -/
  | table {a : α} {t : Table α} {i : ℕ} {ps : List (Value (Point ω) × Value (Point ω))}
      (hG : G a = .table t) (hslot : slotOf st ust a = some (.ref (.table i)))
      (hps : List.Forall₂ (fun p q => Decodes peer st ust p.1 q.1
        ∧ Decodes peer st ust p.2 q.2) t.pairs ps) :
      Rebuilt G peer st ust a (.built i (fromPairs ps))
  /-- A call object was made from what stands for its constructor. -/
  | call {a : α} {type ctor : Value α} {wt wc : Value (Point ω)} {o : ω}
      (hG : G a = .object (.call type ctor))
      (hslot : slotOf st ust a = some (.ref (.object o)))
      (htype : Decodes peer st ust type wt) (hctor : Decodes peer st ust ctor wc) :
      Rebuilt G peer st ust a (.called wt wc (.ok (.ref (.object o))))

theorem Rebuilt.mono [DecidableEq ω] {G : Graph α} (hst : st.Extends st')
    (hust : ust.Extends ust') {a : α} {event : Event ω} (h : Rebuilt G peer st ust a event) :
    Rebuilt G peer st' ust' a event := by
  cases h with
  | table hG hslot hps =>
    exact .table hG (slotOf_mono hst hust hslot)
      (hps.imp (fun _ _ h => ⟨h.1.mono hst hust, h.2.mono hst hust⟩))
  | call hG hslot htype hctor =>
    exact .call hG (slotOf_mono hst hust hslot) (htype.mono hst hust) (hctor.mono hst hust)

theorem exists_mem_of_forall₂ {β γ : Type} {r : β → γ → Prop} {l : List β} {l' : List γ}
    (h : List.Forall₂ r l l') {b : β} (hb : b ∈ l) : ∃ c ∈ l', r b c := by
  induction h with
  | nil => exact absurd hb List.not_mem_nil
  | cons hr _ ih =>
    rcases List.mem_cons.mp hb with rfl | hb
    · exact ⟨_, List.mem_cons_self, hr⟩
    · obtain ⟨c, hc, hrc⟩ := ih hb
      exact ⟨c, List.mem_cons_of_mem _ hc, hrc⟩

/-- The parts of what was rebuilt stand for something. -/
theorem Rebuilt.exists_decodes [DecidableEq ω] {G : Graph α} {a : α} {event : Event ω}
    (h : Rebuilt G peer st ust a event) {x : Value α} (hx : x ∈ (G a).parts) :
    ∃ w, Decodes peer st ust x w := by
  cases h with
  | @table t i ps hG hslot hps =>
    rw [hG] at hx
    obtain ⟨p, hp, hxp⟩ := List.mem_flatMap.mp hx
    obtain ⟨q, -, hq⟩ := exists_mem_of_forall₂ hps hp
    rcases List.mem_cons.mp hxp with rfl | hxp
    · exact ⟨q.1, hq.1⟩
    · obtain rfl := List.mem_singleton.mp hxp
      exact ⟨q.2, hq.2⟩
  | @call type ctor wt wc o hG hslot htype hctor =>
    rw [hG] at hx
    rcases List.mem_cons.mp hx with rfl | hx
    · exact ⟨wt, htype⟩
    · obtain rfl := List.mem_singleton.mp hx
      exact ⟨wc, hctor⟩

end Box

end Felt
