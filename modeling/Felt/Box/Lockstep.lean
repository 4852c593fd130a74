import Felt.Box.Simulation

/-!
# What was packed is unpacked

Whenever the encoder has packed a value, the decoder reads what was written,
ends in the state the simulation asks for, and answers a value that stands for
the one that was packed. There is one exception. The encoder's counter lives
in the table that back-references are looked up in, under the string `"n"`;
that string is written as a reference to the index that will be given next,
which the decoder does not have.

`Follows` says so of one walk, `Follows.mapList` of the elements of a table,
and `follows_doPack` is the induction.

What the induction carries is a disjunction. Either the decoder has read what was
written, and both go on from there; or the counter's name was packed somewhere
inside, and the decoder raises. The second case is passed up unchanged, since an
error in an element is an error in everything around it, so that only the place
where the name is packed has to be looked at (`fails_counter`).
-/

namespace Felt

namespace Box

variable {α ω τ : Type} [DecidableEq α] [DecidableEq ω]

/-- The decoder answers `w`, given fuel enough. -/
def Answers (X : Exchange α ω τ) (b : Bytes) (ust : UnpackState ω τ) (w : Value (Point ω))
    (ust' : UnpackState ω τ) : Prop :=
  ∃ N, ∀ fuel ≥ N, doUnpack .ideal X.receiver fuel b ust = .ok w ust'

/-- The decoder raises, given fuel enough. -/
def Fails (X : Exchange α ω τ) (b : Bytes) (ust : UnpackState ω τ) : Prop :=
  ∃ N, ∀ fuel ≥ N, ∃ e ust', doUnpack .ideal X.receiver fuel b ust = .error e ust'

/-- The name of the encoder's counter is in `v`. -/
def HasName (X : Exchange α ω τ) (v : Value α) : Prop :=
  Occurs X.graph X.known v (.string counterName)

/-- Every open point leads to `v`. -/
def Leads (X : Exchange α ω τ) (opened : List α) (v : Value α) : Prop :=
  ∀ o ∈ opened, ∃ x ∈ (X.graph o).parts, Occurs X.graph X.known x v

/-- **Both walks went on, in step**, and rebuilt `new`, none of which has the
counter's name in it. -/
structure Lockstep (X : Exchange α ω τ) (opened done new : List α) (H H' : Set ℕ)
    (st' : PackState α) (ust ust' : UnpackState ω τ) : Prop where
  /-- They are at the same place again. -/
  sim : Sim X opened (done ++ new) H' st' ust'
  /-- What the decoder had, it has. -/
  extend : ust.Extends ust'
  /-- Without call objects no code of the receiver is run. -/
  plain : (∀ a type ctor, X.graph a ≠ .object (.call type ctor)) → H' = H
  /-- What was rebuilt does not hold the counter's name. -/
  nameless : ∀ a ∈ new, Value.string counterName ∉ (X.graph a).parts

/-- **What was written for `v` is read**, in step with the walk that wrote
it. -/
def Rebuilds (X : Exchange α ω τ) (opened done : List α) (H : Set ℕ) (v : Value α) (b : Bytes)
    (st' : PackState α) (ust : UnpackState ω τ) : Prop :=
  ∃ w ust' new H', Answers X b ust w ust' ∧ Lockstep X opened done new H H' st' ust ust'
    ∧ Decodes X.peer st' ust' v w ∧ v ≠ .string counterName
    ∧ ∀ a ∈ new, Occurs X.graph X.known v (.ref a)

/-- **The decoder follows the walk `pk`**, up to the first time that the
counter's name is packed. There it raises. -/
def Follows (X : Exchange α ω τ) (pk : Value α → Run (PackState α) BoxError Bytes) : Prop :=
  ∀ v st b st', pk v st = .ok b st' → ∀ opened done H ust, Sim X opened done H st ust →
    Leads X opened v → Rebuilds X opened done H v b st' ust ∨ HasName X v ∧ Fails X b ust

variable {X : Exchange α ω τ} {opened done : List α} {H : Set ℕ} {st st' : PackState α}
  {ust : UnpackState ω τ}

omit [DecidableEq α] in
theorem Lockstep.refl (h : Sim X opened done H st ust) :
    Lockstep X opened done [] H H st ust ust :=
  ⟨by rwa [List.append_nil], .refl _, fun _ => rfl, by simp⟩

omit [DecidableEq α] in
/-- An answer that leaves everything as it was. -/
theorem Rebuilds.leaf (h : Sim X opened done H st ust) {v : Value α} {b : Bytes}
    {w : Value (Point ω)} (hans : Answers X b ust w ust) (hdec : Decodes X.peer st ust v w)
    (hv : v ≠ .string counterName) : Rebuilds X opened done H v b st ust :=
  ⟨w, ust, [], H, hans, .refl h, hdec, hv, by simp⟩

/-! ## One element after the other -/

/-- What was written for the values of a list is read. -/
def RebuildsAll (X : Exchange α ω τ) (opened done : List α) (H : Set ℕ) (l : List (Value α))
    (data : List Bytes) (st' : PackState α) (ust : UnpackState ω τ) : Prop :=
  ∃ ws ust' new H', (∃ N, ∀ fuel ≥ N,
      Run.mapList (doUnpack .ideal X.receiver fuel) data ust = .ok ws ust')
    ∧ Lockstep X opened done new H H' st' ust ust'
    ∧ List.Forall₂ (Decodes X.peer st' ust') l ws ∧ .string counterName ∉ l
    ∧ ∀ a ∈ new, ∃ v ∈ l, Occurs X.graph X.known v (.ref a)

/-- The decoder raises in the middle of a list. -/
def FailsIn (X : Exchange α ω τ) (data : List Bytes) (ust : UnpackState ω τ) : Prop :=
  ∃ N, ∀ fuel ≥ N, ∃ e ust',
    Run.mapList (doUnpack .ideal X.receiver fuel) data ust = .error e ust'

omit [DecidableEq α] in
/-- **The decoder follows the walk over a list.** -/
theorem Follows.mapList {pk : Value α → Run (PackState α) BoxError Bytes} (h : Follows X pk)
    (hext : ∀ v st b st', pk v st = .ok b st' → st.Extends st') {l : List (Value α)}
    {data : List Bytes} (hl : Run.mapList pk l st = .ok data st')
    (hsim : Sim X opened done H st ust) (hlead : ∀ v ∈ l, Leads X opened v) :
    RebuildsAll X opened done H l data st' ust
      ∨ (∃ v ∈ l, HasName X v) ∧ FailsIn X data ust := by
  induction l generalizing st ust done H data with
  | nil =>
    obtain ⟨rfl, rfl⟩ := Outcome.ok.inj hl
    exact Or.inl ⟨[], ust, [], H, ⟨0, fun _ _ => rfl⟩, .refl hsim, .nil, by simp, by simp⟩
  | cons v l ih =>
    obtain ⟨b, st₁, data', hb, hl', rfl⟩ := Run.mapList_cons_eq_ok.mp hl
    rcases h v st b st₁ hb opened done H ust hsim (hlead v List.mem_cons_self) with
      ⟨w, ust₁, new₁, H₁, ⟨N₁, hN₁⟩, hstep₁, hw, hv, hnew₁⟩ | ⟨hname, N₁, hN₁⟩
    -- the first element is read, and then the others are or one of them fails
    · rcases ih hl' hstep₁.sim (fun x hx => hlead x (List.mem_cons_of_mem v hx)) with
        ⟨ws, ust₂, new₂, H₂, ⟨N₂, hN₂⟩, hstep₂, hws, hl, hnew₂⟩ | ⟨⟨x, hx, hname⟩, N₂, hN₂⟩
      · refine Or.inl ⟨w :: ws, ust₂, new₁ ++ new₂, H₂, ⟨max N₁ N₂, fun fuel hfuel => ?_⟩,
          ⟨by rw [← List.append_assoc]; exact hstep₂.sim, hstep₁.extend.trans hstep₂.extend,
            fun hp => (hstep₂.plain hp).trans (hstep₁.plain hp), fun a ha => ?_⟩,
          .cons (hw.mono (extends_of_mapList hext hl') hstep₂.extend) hws,
          fun hmem => (List.mem_cons.mp hmem).elim (fun h => hv h.symm) hl, fun a ha => ?_⟩
        · exact Run.mapList_cons_eq_ok.mpr ⟨w, ust₁, ws, hN₁ fuel (by omega),
            hN₂ fuel (by omega), rfl⟩
        · exact (List.mem_append.mp ha).elim (hstep₁.nameless a) (hstep₂.nameless a)
        · rcases List.mem_append.mp ha with ha | ha
          · exact ⟨v, List.mem_cons_self, hnew₁ a ha⟩
          · obtain ⟨x, hx, hocc⟩ := hnew₂ a ha
            exact ⟨x, List.mem_cons_of_mem v hx, hocc⟩
      · refine Or.inr ⟨⟨x, List.mem_cons_of_mem v hx, hname⟩, max N₁ N₂, fun fuel hfuel => ?_⟩
        obtain ⟨e, ust', he⟩ := hN₂ fuel (by omega)
        exact ⟨e, ust', by
          rw [Run.mapList_cons, Run.bind_of_ok (hN₁ fuel (by omega)), Run.bind_of_error he]⟩
    · refine Or.inr ⟨⟨v, List.mem_cons_self, hname⟩, N₁, fun fuel hfuel => ?_⟩
      obtain ⟨e, ust', he⟩ := hN₁ fuel hfuel
      exact ⟨e, ust', by rw [Run.mapList_cons, Run.bind_of_error he]⟩

/-! ## Scalars and references -/

omit [DecidableEq α] in
theorem decodes_scalar {v : Value α} {b : Bytes} (hb : scalarText v = some b)
    (ust : UnpackState ω τ) :
    ∃ w, Answers X b ust w ust ∧ Decodes X.peer st ust v w := by
  cases v with
  | nil =>
    obtain rfl := Option.some.inj hb
    exact ⟨.nil, ⟨1, fun fuel hfuel => by
      obtain ⟨f, rfl⟩ : ∃ f, fuel = f + 1 := ⟨fuel - 1, by omega⟩
      rfl⟩, .nil⟩
  | boolean x =>
    obtain rfl := Option.some.inj hb
    refine ⟨.boolean x, ⟨1, fun fuel hfuel => ?_⟩, .boolean x⟩
    obtain ⟨f, rfl⟩ : ∃ f, fuel = f + 1 := ⟨fuel - 1, by omega⟩
    cases x <;> rfl
  | number n =>
    obtain rfl := Option.some.inj hb
    obtain ⟨m, hm, -⟩ := Number.exists_tonumber_tostring n
    refine ⟨.number m, ⟨1, fun fuel hfuel => ?_⟩, .number hm⟩
    obtain ⟨f, rfl⟩ : ∃ f, fuel = f + 1 := ⟨fuel - 1, by omega⟩
    show unpackN n.tostring ust = _
    rw [unpackN, hm]
    rfl
  | string s =>
    obtain rfl := Option.some.inj hb
    exact ⟨.string s, ⟨1, fun fuel hfuel => by
      obtain ⟨f, rfl⟩ : ∃ f, fuel = f + 1 := ⟨fuel - 1, by omega⟩
      rfl⟩, .string s⟩
  | ref a => exact absurd hb (by simp [scalarText])
  | foreign t => exact absurd hb (by simp [scalarText])

/-- A text that is an index is the entry under it. -/
theorem entryAt_natCast {β : Type} (l : List β) {k : ℕ} (hk : 1 ≤ k) :
    entryAt l (.fin k) = l[k - 1]? := by
  have hden : ((k : ℚ)).den = 1 := Rat.den_natCast k
  have hnum : ((k : ℚ)).num = k := Rat.num_natCast k
  simp only [entryAt, hden, hnum]
  rw [if_pos ⟨trivial, by omega⟩, Int.toNat_natCast]

omit [DecidableEq α] in
/-- **A back-reference is what was rebuilt under its index.** -/
theorem answers_ref (hsim : Sim X opened done H st ust) {a : α} {k : ℕ}
    (hk : st.refs.index a = some k) {p : Point ω} (hs : slotOf st ust a = some (.ref p)) :
    Answers X (bytes "R" ++ decimal k) ust (.ref p) ust := by
  refine ⟨1, fun fuel hfuel => ?_⟩
  obtain ⟨f, rfl⟩ : ∃ f, fuel = f + 1 := ⟨fuel - 1, by omega⟩
  have hget : ust.refs[k - 1]? = some (.ref p) := by rwa [slotOf, hk] at hs
  show unpackR .ideal (decimal k) ust = _
  rw [unpackR, Run.get_bind, Arith.ideal_index_decimal, Option.bind_some,
    entryAt_natCast _ (hsim.range a k hk).1, hget]
  rfl

omit [DecidableEq α] in
/-- **The counter is no index**: nothing has been put under it yet. -/
theorem fails_counter (hsim : Sim X opened done H st ust) :
    Fails X (bytes "R" ++ decimal st.refs.n) ust := by
  refine ⟨1, fun fuel hfuel => ?_⟩
  obtain ⟨f, rfl⟩ : ∃ f, fuel = f + 1 := ⟨fuel - 1, by omega⟩
  have hsize := hsim.size
  have hget : ust.refs[st.refs.n - 1]? = none := List.getElem?_eq_none (by omega)
  refine ⟨.invalidBackreference (decimal st.refs.n), ust, ?_⟩
  show unpackR .ideal (decimal st.refs.n) ust = _
  rw [unpackR, Run.get_bind, Arith.ideal_index_decimal, Option.bind_some,
    entryAt_natCast _ (by omega), hget]
  rfl

omit [DecidableEq α] in
/-- **An id is the receiver's object under it.** -/
theorem answers_obj (hsim : Sim X opened done H st ust) {id : ℕ} {o : ω} (hid : id ∈ X.ids)
    (ho : X.peer id = some o) :
    Answers X (bytes "O" ++ decimal id) ust (.ref (.object o)) ust := by
  refine ⟨1, fun fuel hfuel => ?_⟩
  obtain ⟨f, rfl⟩ : ∃ f, fuel = f + 1 := ⟨fuel - 1, by omega⟩
  obtain ⟨objs, hobjs, hentry⟩ :=
    Option.bind_eq_some_iff.mp ((hsim.entries id hid).trans ho)
  show unpackO .ideal X.receiver (decimal id) ust = _
  rw [unpackO, Run.get_bind, hobjs, Run.bind_of_ok (Run.assertSome_some _ _ _),
    Arith.ideal_index_decimal, Option.bind_some, hentry]
  rfl

/-! ## Tables -/

/-- What stands for the elements of a table are its keys and values again. -/
theorem exists_pairs_of_forall₂ {β γ : Type} {r : β → γ → Prop} {l : List (β × β)}
    {ws : List γ} (h : List.Forall₂ r (l.flatMap (fun p => [p.1, p.2])) ws) :
    ∃ ps : List (γ × γ), ws = ps.flatMap (fun p => [p.1, p.2])
      ∧ List.Forall₂ (fun p q => r p.1 q.1 ∧ r p.2 q.2) l ps := by
  induction l generalizing ws with
  | nil =>
    cases h
    exact ⟨[], rfl, .nil⟩
  | cons p l ih =>
    rcases h with _ | ⟨hk, h⟩
    rcases h with _ | ⟨hv, h⟩
    obtain ⟨ps, rfl, hps⟩ := ih h
    exact ⟨(_, _) :: ps, rfl, .cons ⟨hk, hv⟩ hps⟩

omit [DecidableEq α] [DecidableEq ω] in
/-- An element below an open point is below all of them. -/
theorem Leads.parts {a : α} (h : Leads X opened (.ref a)) (ha : ¬ X.known a) {x : Value α}
    (hx : x ∈ (X.graph a).parts) : Leads X (a :: opened) x := by
  intro o ho
  rcases List.mem_cons.mp ho with rfl | ho
  · exact ⟨x, hx, .self x⟩
  · obtain ⟨y, hy, hocc⟩ := h o ho
    exact ⟨y, hy, hocc.tail ha hx⟩

/-- **The decoder follows the walk through a table.** -/
theorem follows_table {pk : Value α → Run (PackState α) BoxError Bytes} (h : Follows X pk)
    (hext : ∀ v st b st', pk v st = .ok b st' → st.Extends st') {a : α} {t : Table α}
    (hk : st.refs.index a = none) (hid : st.knownId (.ref a) = none)
    (hG : X.graph a = .table t) {data : List Bytes}
    (hdata : Run.mapList pk t.elements (st.mark a) = .ok data st')
    (hsim : Sim X opened done H st ust) (hlead : Leads X opened (.ref a)) :
    Rebuilds X opened done H (.ref a) (withToc (bytes "T") data) st' ust
      ∨ HasName X (.ref a) ∧ Fails X (withToc (bytes "T") data) ust := by
  have ha : ¬ X.known a := fun hka => hsim.known a hka hid
  have hparts : (X.graph a).parts = t.elements := by rw [hG]; rfl
  have henter : Sim X (a :: opened) done H (st.mark a) ust.enterTable := by
    refine hsim.enter hk hid (List.prefix_append _ _) rfl (.inl ⟨t, hG⟩) (fun t _ => ⟨rfl, ?_⟩)
      (fun type ctor hc => absurd (hG.symm.trans hc) (by simp)) (fun j hj => ?_)
    · simp
    · obtain rfl : ust.store.tables.length = j := by simpa using hj
      simp
  rcases h.mapList hext hdata henter (fun x hx => hlead.parts ha (hparts ▸ hx)) with
    ⟨ws, ust₂, new, H', ⟨N, hN⟩, hstep, hws, hl, hnew⟩ | ⟨⟨x, hx, hname⟩, N, hN⟩
  case inr =>
    refine Or.inr ⟨.part ha (hparts ▸ hx) hname, max N data.length + 1, fun fuel hfuel => ?_⟩
    obtain ⟨f, rfl⟩ : ∃ f, fuel = f + 1 := ⟨fuel - 1, by omega⟩
    obtain ⟨e, ust', he⟩ := hN f (by omega)
    refine ⟨e, ust', ?_⟩
    show doUnpack .ideal X.receiver (f + 1) (84 :: (maketoc data ++ data.flatten)) ust = _
    rw [doUnpack_table, Run.bind_of_ok (readtoc_maketoc data (by omega) _),
      Run.bind_of_error he]
  obtain ⟨ps, rfl, hps⟩ := exists_pairs_of_forall₂ hws
  have hslot : slotOf st' ust₂ a = some (.ref (.table ust.store.tables.length)) :=
    slotOf_mono (extends_of_mapList hext hdata) hstep.extend
      (Sim.slotOf_mark hsim.size a _ _ _)
  have hclose := hstep.sim.closeTable hG hslot hps
  obtain ⟨i, hi, -, hempty⟩ := hstep.sim.openTable a List.mem_cons_self t hG
  obtain rfl : ust.store.tables.length = i := by
    have := hslot.symm.trans hi
    simpa using this
  -- no hole among the elements, and no key that is none
  have hkeys : ∀ q ∈ ps, q.1.IsKey ∧ q.2 ≠ .nil := fun q hq => by
    obtain ⟨p, hp, hdec⟩ := exists_mem_of_forall₂ hps.flip hq
    exact ⟨hdec.1.isKey (t.isKey p hp), hdec.2.ne_nil (t.value_ne_nil p hp)⟩
  have hnil : ∀ w ∈ ps.flatMap (fun p => [p.1, p.2]), w ≠ .nil := fun w hw => by
    obtain ⟨q, hq, hwq⟩ := List.mem_flatMap.mp hw
    rcases List.mem_cons.mp hwq with rfl | hwq
    · intro hn
      have := (hkeys q hq).1
      rw [hn] at this
      exact this
    · obtain rfl := List.mem_singleton.mp hwq
      exact (hkeys q hq).2
  have hborder := (X.receiver.isBorder (ps.flatMap (fun p => [p.1, p.2]))).eq_length hnil
  refine Or.inl ⟨.ref (.table ust.store.tables.length),
    ust₂.build ust.store.tables.length ps, new ++ [a], H',
    ⟨max N data.length + 1, fun fuel hfuel => ?_⟩,
    ⟨by rw [← List.append_assoc]; exact hclose, ?_, hstep.plain, fun b hb => ?_⟩,
    .slot hslot, by simp, fun b hb => ?_⟩
  · obtain ⟨f, rfl⟩ : ∃ f, fuel = f + 1 := ⟨fuel - 1, by omega⟩
    show doUnpack .ideal X.receiver (f + 1) (84 :: (maketoc data ++ data.flatten)) ust = _
    rw [doUnpack_table, Run.bind_of_ok (readtoc_maketoc data (by omega) _),
      Run.bind_of_ok (hN f (by omega)), hborder, List.take_length,
      Run.bind_of_ok (setEntries_pairs (fun q hq => (hkeys q hq).1) ust₂), note,
      Run.modify_bind]
    have hget : (ust₂.store.tables.modify ust.store.tables.length
        (fun c => ps.foldl (fun c p => assign p.1 p.2 c) c)).getD ust.store.tables.length []
          = fromPairs ps := by
      rw [List.getD_eq_getElem?_getD, List.getElem?_modify_eq, hempty]
      rfl
    show Outcome.ok _ _ = Outcome.ok _ _
    simp only [UnpackState.setTables, UnpackState.build, hget]
  · exact (Sim.extends_push ust _ _).trans (hstep.extend.trans (Sim.extends_build ust₂ _ ps))
  · rcases List.mem_append.mp hb with hb | hb
    · exact hstep.nameless b hb
    · rw [List.mem_singleton.mp hb, hparts]
      exact hl
  · rcases List.mem_append.mp hb with hb | hb
    · obtain ⟨x, hx, hocc⟩ := hnew b hb
      exact .part ha (hparts ▸ hx) hocc
    · obtain rfl := List.mem_singleton.mp hb
      exact .self _

/-! ## Call objects -/

omit [DecidableEq ω] in
/-- **A type the receiver serves is instantiated**, within an enclosure that
has the argument. -/
theorem instantiate_serves {R : Receiver ω τ} {held : τ → Set ℕ} {ids : Set ℕ} {type : Bytes}
    (hserves : R.Serves held ids type) (arg : Value (Point ω)) (ust : UnpackState ω τ)
    {C : Set ℕ} (hC : Encloses held ust.store C) (harg : ∀ i, arg = .ref (.table i) → i ∈ C) :
    ∃ o store, instantiate R (.string type) arg ust = .ok (.ref (.object o))
        ⟨ust.refs, store, ust.history ++ [.called (.string type) arg (.ok (.ref (.object o)))]⟩
      ∧ KeepsTo held C ust.store store
      ∧ ∀ id ∈ ids, R.entry store.world id = R.entry ust.store.world id := by
  obtain ⟨f₁, hf₁, -⟩ := hserves.found ust.store
  set s₁ := (R.require (.string type) ust.store).2 with hs₁
  obtain ⟨f₂, hf₂, hcode⟩ := hserves.found s₁
  set s₂ := (R.require (.string type) s₁).2 with hs₂
  obtain ⟨hconf, hkeep, hans⟩ := hcode arg
  obtain ⟨o, ho⟩ := hans s₂
  have hk₁ : KeepsTo held C ust.store s₁ :=
    hserves.confined ust.store C hC (Set.empty_subset _)
  have hk₂ : KeepsTo held _ s₁ s₂ := hserves.confined s₁ _ hk₁.encloses (Set.empty_subset _)
  have hk₁₂ := hk₁.trans hk₂
  have hk₃ := hconf s₂ _ hk₁₂.encloses (fun i hi => Or.inl (harg i hi))
  refine ⟨o, (f₂ arg s₂).2, ?_, hk₁₂.trans hk₃, fun id hid => ?_⟩
  · simp only [instantiate, callOut, note, Run.bind_apply, Run.get_apply, Run.modify_apply,
      hf₁, ← hs₁, hf₂, ← hs₂, ho, Run.ofExcept_ok, Run.assertSome_some]
    rfl
  · rw [hkeep s₂ id hid, hs₂, hserves.keeps s₁ id hid, hs₁, hserves.keeps ust.store id hid]

omit [DecidableEq α] [DecidableEq ω] in
/-- Nothing but itself occurs in a string. -/
theorem not_occurs_string {s : Bytes} {a : α} :
    ¬ Occurs X.graph X.known (.string s) (.ref a) := by
  intro h
  cases h

/-- **The decoder follows the walk through a call object.** -/
theorem follows_call {pk : Value α → Run (PackState α) BoxError Bytes} (h : Follows X pk)
    (hext : ∀ v st b st', pk v st = .ok b st' → st.Extends st') {a : α} {type : Bytes}
    {ctor : Value α} (hk : st.refs.index a = none) (hid : st.knownId (.ref a) = none)
    (hG : X.graph a = .object (.call (.string type) ctor)) {data : List Bytes}
    (hdata : Run.mapList pk [.string type, ctor] (st.mark a) = .ok data st')
    (hsim : Sim X opened done H st ust) (hlead : Leads X opened (.ref a)) :
    Rebuilds X opened done H (.ref a) (withToc (bytes "C") data) st' ust
      ∨ HasName X (.ref a) ∧ Fails X (withToc (bytes "C") data) ust := by
  have ha : ¬ X.known a := fun hka => hsim.known a hka hid
  have hparts : (X.graph a).parts = [.string type, ctor] := by rw [hG]; rfl
  have henter : Sim X (a :: opened) done H (st.mark a) ust.enterCall := by
    refine hsim.enter hk hid (List.prefix_refl _) rfl (.inr ⟨_, _, hG⟩)
      (fun t ht => absurd (hG.symm.trans ht) (by simp)) (fun _ _ _ => rfl) (fun j hj => ?_)
    exact absurd hj (by simp)
  obtain ⟨b₁, sb₁, data₁, -, hdata₁, rfl⟩ := Run.mapList_cons_eq_ok.mp hdata
  obtain ⟨b₂, sb₂, data₂, -, hdata₂, rfl⟩ := Run.mapList_cons_eq_ok.mp hdata₁
  obtain ⟨rfl, -⟩ := Outcome.ok.inj hdata₂
  rcases h.mapList hext hdata henter (fun x hx => hlead.parts ha (hparts ▸ hx)) with
    ⟨ws, ust₂, new, H', ⟨N, hN⟩, hstep, hws, hl, hnew⟩ | ⟨⟨x, hx, hname⟩, N, hN⟩
  case inr =>
    refine Or.inr ⟨.part ha (hparts ▸ hx) hname, max N 2 + 1, fun fuel hfuel => ?_⟩
    obtain ⟨f, rfl⟩ : ∃ f, fuel = f + 1 := ⟨fuel - 1, by omega⟩
    obtain ⟨e, ust', he⟩ := hN f (by omega)
    refine ⟨e, ust', ?_⟩
    show doUnpack .ideal X.receiver (f + 1)
      (67 :: (maketoc [b₁, b₂] ++ [b₁, b₂].flatten)) ust = _
    rw [doUnpack_call, Run.bind_of_ok (readtoc_maketoc [b₁, b₂] (by simp; omega) _)]
    rcases Run.bind_eq_error.mp he with h₁ | ⟨w₁, s₁, h₁, he⟩
    · have helem : (Run.assertSome [b₁, b₂][0]? (.refused "index nil")
          >>= doUnpack .ideal X.receiver f) ust.enterCall = .error e ust' := h₁
      rw [Run.bind_of_error helem]
    · have helem₁ : (Run.assertSome [b₁, b₂][0]? (.refused "index nil")
          >>= doUnpack .ideal X.receiver f) ust.enterCall = .ok w₁ s₁ := h₁
      rw [Run.bind_of_ok helem₁]
      rcases Run.bind_eq_error.mp he with h₂ | ⟨ws, s₂, -, he⟩
      · rcases Run.bind_eq_error.mp h₂ with h₂ | ⟨w₂, s₂, -, h₂⟩
        · have helem₂ : (Run.assertSome [b₁, b₂][1]? (.refused "index nil")
              >>= doUnpack .ideal X.receiver f) s₁ = .error e ust' := h₂
          rw [Run.bind_of_error helem₂]
        · exact absurd h₂ (by simp [Run.bind_apply])
      · exact absurd he (by simp)
  have hindex : st'.refs.index a = some st.refs.n :=
    (extends_of_mapList hext hdata).index a _ (PackState.mark_index_self st a)
  -- two elements, and what stands for them
  obtain ⟨wt, ws', htype, hws', rfl⟩ := List.forall₂_cons_left_iff.mp hws
  obtain ⟨wc, ws'', hctor, hws'', rfl⟩ := List.forall₂_cons_left_iff.mp hws'
  obtain rfl := List.forall₂_nil_left_iff.mp hws''
  obtain rfl : wt = .string type := by
    cases htype
    rfl
  -- nothing open is below the constructor: the object itself would be
  have hfree : ∀ o ∈ a :: opened, ¬ Occurs X.graph X.known ctor (.ref o) := by
    intro o ho hocc
    refine X.isMessage.acyclic a (.string type) ctor ha hG ?_
    rcases List.mem_cons.mp ho with rfl | ho
    · exact hocc
    · obtain ⟨x, hx, hxa⟩ := hlead o ho
      refine hocc.trans (.part (hsim.not_known ?_) hx hxa)
      exact (hsim.marked o).mpr (Or.inl ho)
  have hC := hstep.sim.encloses_below hfree
  have harg : ∀ i, wc = .ref (.table i) → i ∈ H' ∪ Sim.tablesBelow X st' ust₂ ctor := by
    rintro i rfl
    cases hctor with
    | slot hs => exact Or.inr ⟨_, .self _, hs⟩
  obtain ⟨o, store, hinst, hkeeps, hentries⟩ :=
    instantiate_serves (X.serves a type ctor ha hG) wc ust₂ hC harg
  obtain ⟨hclose, hcloseExt⟩ :=
    hstep.sim.closeCall hG hindex hfree (.string type) hctor hkeeps hentries o
  have hpos : st.refs.n - 1 = ust.refs.length := by
    have := hsim.size
    omega
  rw [hpos] at hclose hcloseExt
  have hslot : slotOf st' ⟨ust₂.refs.set ust.refs.length (.ref (.object o)), store,
      ust₂.history ++ [.called (.string type) wc (.ok (.ref (.object o)))]⟩ a
        = some (.ref (.object o)) := by
    obtain ⟨p, hp⟩ := hclose.exists_slot_of_done (a := a) (by simp)
    rw [hp]
    rw [slotOf, hindex, Option.bind_some, hpos] at hp
    have hlt : ust.refs.length < ust₂.refs.length := by
      have := (List.getElem?_eq_some_iff.mp hp).1
      rwa [List.length_set] at this
    rw [List.getElem?_set_self hlt] at hp
    exact hp.symm
  refine Or.inl ⟨.ref (.object o), _, new ++ [a], _, ⟨max N 2 + 1, fun fuel hfuel => ?_⟩,
    ⟨by rw [← List.append_assoc]; exact hclose, ?_,
      fun hp => absurd hG (hp a (.string type) ctor), fun b hb => ?_⟩,
    .slot hslot, by simp, fun b hb => ?_⟩
  · obtain ⟨f, rfl⟩ : ∃ f, fuel = f + 1 := ⟨fuel - 1, by omega⟩
    obtain ⟨w₁, s₁, ws₁, hw₁, hrest, hwseq⟩ :=
      Run.mapList_cons_eq_ok.mp (hN f (by omega))
    obtain ⟨w₂, s₂, ws₂, hw₂, hend, hwseq₂⟩ := Run.mapList_cons_eq_ok.mp hrest
    obtain ⟨rfl, rfl⟩ := Outcome.ok.inj hend
    obtain ⟨rfl, rfl⟩ := List.cons.inj hwseq
    obtain ⟨rfl, -⟩ := List.cons.inj hwseq₂
    show doUnpack .ideal X.receiver (f + 1)
      (67 :: (maketoc [b₁, b₂] ++ [b₁, b₂].flatten)) ust = _
    have helem₁ : (Run.assertSome [b₁, b₂][0]? (.refused "index nil")
        >>= doUnpack .ideal X.receiver f) ust.enterCall = .ok (.string type) s₁ := hw₁
    have helem₂ : (Run.assertSome [b₁, b₂][1]? (.refused "index nil")
        >>= doUnpack .ideal X.receiver f) s₁ = .ok wc s₂ := hw₂
    rw [doUnpack_call, Run.bind_of_ok (readtoc_maketoc [b₁, b₂] (by simp; omega) _),
      Run.bind_of_ok helem₁, Run.bind_of_ok helem₂, Run.bind_of_ok hinst, Run.modify_bind]
    rfl
  · exact (Sim.extends_push ust _ _).trans (hstep.extend.trans hcloseExt)
  · rcases List.mem_append.mp hb with hb | hb
    · exact hstep.nameless b hb
    · rw [List.mem_singleton.mp hb, hparts]
      exact hl
  · rcases List.mem_append.mp hb with hb | hb
    · obtain ⟨x, hx, hocc⟩ := hnew b hb
      exact .part ha (hparts ▸ hx) hocc
    · obtain rfl := List.mem_singleton.mp hb
      exact .self _

/-! ## The whole walk -/

/-- **The decoder follows the encoder**, by induction on the encoder's walk. -/
theorem follows_doPack (X : Exchange α ω τ) (fuel : ℕ) :
    Follows X (doPack X.graph fuel) := by
  induction fuel with
  | zero =>
    intro v st b st' h
    exact absurd h (by simp [doPack])
  | succ fuel ih =>
    have hext : ∀ v st b st', doPack X.graph fuel v st = .ok b st' → st.Extends st' :=
      fun v st b st' h => extends_of_doPack h
    intro v st b st' hp opened done H ust hsim hlead
    cases packStep_of_doPack hp with
    | @ref _ _ k hk =>
      cases v with
      | string s =>
        -- the counter is what `refs` has under its name, and no other string is in it
        by_cases hs : s = counterName
        · obtain rfl : st.refs.n = k := by simpa [Refs.lookup, hs] using hk
          exact Or.inr ⟨hs ▸ .self _, fails_counter hsim⟩
        · exact absurd hk (by simp [Refs.lookup, hs])
      | ref a =>
        have hindex : st.refs.index a = some k := hk
        have hslot : ∃ p, slotOf st ust a = some (.ref p) := by
          have hne : st.refs.index a ≠ none := by
            rw [hindex]
            simp
          rcases (hsim.marked a).mp hne with ho | hd
          · rcases hsim.openCell a ho with ⟨t, hG⟩ | ⟨type, ctor, hG⟩
            · obtain ⟨i, hi, -, -⟩ := hsim.openTable a ho t hG
              exact ⟨_, hi⟩
            · -- an open call object is not below its own constructor
              have ha := hsim.not_known hne
              obtain ⟨s, rfl⟩ := X.isMessage.exists_type ha hG
              obtain ⟨x, hx, hocc⟩ := hlead a ho
              rw [hG] at hx
              rcases List.mem_cons.mp hx with rfl | hx
              · exact absurd hocc not_occurs_string
              · obtain rfl := List.mem_singleton.mp hx
                exact absurd hocc (X.isMessage.acyclic a _ _ ha hG)
          · exact hsim.exists_slot_of_done hd
        obtain ⟨p, hp⟩ := hslot
        exact Or.inl (.leaf hsim (answers_ref hsim hindex hp) (.slot hp) (by simp))
      | _ => exact absurd hk (by simp [Refs.lookup])
    | @obj _ _ id hk hid =>
      cases v with
      | ref a =>
        have hids := (hsim.knownId a id hid).2.1
        obtain ⟨o, ho⟩ := Option.isSome_iff_exists.mp (X.peer_isSome id hids)
        exact Or.inl (.leaf hsim (answers_obj hsim hids ho) (.known hid ho) (by simp))
      | _ => exact absurd hid (by simp [PackState.knownId])
    | scalar hk hb =>
      obtain ⟨w, hans, hdec⟩ : ∃ w, Answers X b ust w ust ∧ Decodes X.peer st ust v w :=
        decodes_scalar hb ust
      refine Or.inl (.leaf hsim hans hdec (fun hv => ?_))
      rw [hv] at hk
      exact absurd hk (by simp [Refs.lookup])
    | table hk hid hG hdata => exact follows_table ih hext hk hid hG hdata hsim hlead
    | @raw a str _ hk hid hG =>
      rcases X.isMessage.cell a (fun h => hsim.known a h hid) with
        ⟨t, h⟩ | ⟨type, ctor, h⟩ | ⟨id, h⟩ <;> exact absurd (h.symm.trans hG) (by simp)
    | @pack a w _ _ _ hk hid hG hw =>
      rcases X.isMessage.cell a (fun h => hsim.known a h hid) with
        ⟨t, h⟩ | ⟨type, ctor, h⟩ | ⟨id, h⟩ <;> exact absurd (h.symm.trans hG) (by simp)
    | @record a id w _ st₁ _ _ hk hid hG hst hw =>
      have ha : ¬ X.known a := fun h => hsim.known a h hid
      obtain rfl := (X.isMessage.isSome_and_eq ha hG).2
      exact ih (.ref a) st₁ b st' hw opened done H ust (hsim.record hk hid hG hst) hlead
    | @call a type ctor _ _ data hk hid hG hdata =>
      have ha : ¬ X.known a := fun h => hsim.known a h hid
      obtain ⟨s, rfl⟩ := X.isMessage.exists_type ha hG
      exact follows_call ih hext hk hid hG hdata hsim hlead

end Box

end Felt
