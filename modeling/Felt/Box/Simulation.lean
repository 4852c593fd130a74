import Felt.Box.Exchange

/-!
# The decoder follows the encoder

Encoder and decoder number the tables of a message independently – the one
counts in `refs.n`, the other appends to `refs` – and both are in the middle
of the same walk whenever either of them is. `Sim` relates the two states:
every index the encoder has given away has its entry in the decoder's list,
a table or call object whose elements have all been read has been rebuilt,
and one that is still open has a place that nothing has been put in yet.

The proof is by induction on the encoder's walk (`follows_doPack`). A table or
call object opens one more point, its elements are followed one by one, and
closing it makes one more entry of the history.

Four things can happen to a point. It is opened, when it gets its index and its
elements are about to be read (`Sim.enter`); it is recorded, when an object gives
its id away (`Sim.record`); and it is closed, as a table (`Sim.closeTable`) or as
a call object (`Sim.closeCall`). These are all the steps there are, and each has
one lemma. What is between them – scalars and references – changes neither of the
states.

The invariant has many fields because it says all of what both sides know: how
their counters go together, which points are open and which are done, which
tables the receiver's own code may have got hold of, and that a constructor was
complete when it was handed over. A field that a step does not touch is carried
over by name.
-/

namespace Felt

namespace Box

variable {α ω τ : Type} [DecidableEq α] [DecidableEq ω]

/-- **The two walks are at the same place.** `opened` are the points whose
elements are being read, `done` those that have been rebuilt, in that order,
and `H` encloses what the receiver's code has got hold of. -/
structure Sim (X : Exchange α ω τ) (opened done : List α) (H : Set ℕ) (st : PackState α)
    (ust : UnpackState ω τ) : Prop where
  /-- The decoder has an entry for every index. -/
  size : ust.refs.length + 1 = st.refs.n
  /-- Indices are below the counter. -/
  range : ∀ a k, st.refs.index a = some k → 1 ≤ k ∧ k < st.refs.n
  /-- An index is given once. -/
  inj : ∀ a b k, st.refs.index a = some k → st.refs.index b = some k → a = b
  /-- What has an index is open or done. -/
  marked : ∀ a, st.refs.index a ≠ none ↔ a ∈ opened ∨ a ∈ done
  /-- It is one of the two, and once. -/
  nodup : (opened ++ done).Nodup
  /-- What the receiver had at first, it has. -/
  known : ∀ a, X.known a → st.knownId (.ref a) ≠ none
  /-- What has an id has no index, and its id may be used. -/
  knownId : ∀ a id, st.knownId (.ref a) = some id → st.refs.index a = none ∧ id ∈ X.ids
    ∧ (X.known a ∨ X.graph a = .object (.pack (some id) (.ref a)))
  /-- The receiver has the objects under the ids. -/
  entries : ∀ id ∈ X.ids, X.receiver.entry ust.store.world id = X.peer id
  /-- Tables and call objects are opened. -/
  openCell : ∀ a ∈ opened, (∃ t, X.graph a = .table t)
    ∨ ∃ type ctor, X.graph a = .object (.call type ctor)
  /-- An open table is empty, and out of reach of the receiver's code. -/
  openTable : ∀ a ∈ opened, ∀ t, X.graph a = .table t →
    ∃ i, slotOf st ust a = some (.ref (.table i)) ∧ i ∉ H ∧ ust.store.tables[i]? = some []
  /-- An open call object has its marker. -/
  openCall : ∀ a ∈ opened, ∀ type ctor, X.graph a = .object (.call type ctor) →
    slotOf st ust a = some (.boolean false)
  /-- Different points are different tables. -/
  tableInj : ∀ a b i, slotOf st ust a = some (.ref (.table i)) →
    slotOf st ust b = some (.ref (.table i)) → a = b
  /-- They exist. -/
  bound : ∀ a i, slotOf st ust a = some (.ref (.table i)) → i < ust.store.tables.length
  /-- What is done has been rebuilt. -/
  history : List.Forall₂ (Rebuilt X.graph X.peer st ust) done ust.history
  /-- A table keeps its contents unless the receiver's code has got hold of
  it. -/
  frozen : ∀ i c, .built i c ∈ ust.history → i ∈ H ∨ ust.store.tables[i]? = some c
  /-- `H` is an enclosure. -/
  encloses : Encloses X.held ust.store H
  /-- All that is below a constructor was rebuilt before. -/
  nested : ∀ pre a post, done = pre ++ a :: post → ∀ type ctor,
    X.graph a = .object (.call type ctor) → ∀ b, Occurs X.graph X.known ctor (.ref b) →
    st.knownId (.ref b) = none → b ∈ pre

namespace Sim

variable {X : Exchange α ω τ} {opened done : List α} {H : Set ℕ} {st : PackState α}
  {ust : UnpackState ω τ}

omit [DecidableEq α] in
/-- What has an index was not known at first. -/
theorem not_known (h : Sim X opened done H st ust) {a : α} (ha : st.refs.index a ≠ none) :
    ¬ X.known a := by
  intro hk
  obtain ⟨id, hid⟩ := Option.ne_none_iff_exists'.mp (h.known a hk)
  exact ha (h.knownId a id hid).1

omit [DecidableEq α] [DecidableEq ω] in
theorem index_of_slotOf {a : α} {w : Value (Point ω)} (hs : slotOf st ust a = some w) :
    st.refs.index a ≠ none := by
  obtain ⟨k, hk, -⟩ := Option.bind_eq_some_iff.mp hs
  rw [hk]
  simp

omit [DecidableEq α] in
/-- What is done has been rebuilt. -/
theorem rebuilt (h : Sim X opened done H st ust) {a : α} (ha : a ∈ done) :
    ∃ event ∈ ust.history, Rebuilt X.graph X.peer st ust a event :=
  exists_mem_of_forall₂ h.history ha

omit [DecidableEq α] in
/-- What is done stands for something. -/
theorem exists_slot_of_done (h : Sim X opened done H st ust) {a : α} (ha : a ∈ done) :
    ∃ p, slotOf st ust a = some (.ref p) := by
  obtain ⟨event, -, hr⟩ := h.rebuilt ha
  cases hr with
  | table _ hslot _ => exact ⟨_, hslot⟩
  | call _ hslot _ _ => exact ⟨_, hslot⟩

omit [DecidableEq α] in
/-- A table in the history is the table of a point that is done. -/
theorem exists_done_of_built (h : Sim X opened done H st ust) {i : ℕ}
    {c : List (Value (Point ω) × Value (Point ω))} (hc : .built i c ∈ ust.history) :
    ∃ a ∈ done, slotOf st ust a = some (.ref (.table i)) := by
  obtain ⟨a, ha, hr⟩ := exists_mem_of_forall₂ h.history.flip hc
  cases hr with
  | table _ hslot _ => exact ⟨a, ha, hslot⟩

/-! ### Opening a point -/

omit [DecidableEq ω] in
theorem slotOf_mark (hsize : ust.refs.length + 1 = st.refs.n) (a : α) (w : Value (Point ω))
    (store : Store ω τ) (history : List (Event ω)) :
    slotOf (st.mark a) ⟨ust.refs ++ [w], store, history⟩ a = some w := by
  have hlen : st.refs.n - 1 = ust.refs.length := by omega
  rw [slotOf, PackState.mark_index_self, Option.bind_some, hlen]
  simp

theorem slotOf_mark_of_ne (h : Sim X opened done H st ust) {a b : α} (hb : b ≠ a)
    (w : Value (Point ω)) (store : Store ω τ) (history : List (Event ω)) :
    slotOf (st.mark a) ⟨ust.refs ++ [w], store, history⟩ b = slotOf st ust b := by
  rw [slotOf, slotOf, PackState.mark_index_of_ne st hb]
  rcases hk : st.refs.index b with _ | k
  · rfl
  · have hsize := h.size
    have hrange := h.range b k hk
    simp only [Option.bind_some]
    rw [List.getElem?_append_left (by omega)]

omit [DecidableEq ω] in
theorem extends_push (ust : UnpackState ω τ) (w : Value (Point ω)) (store : Store ω τ) :
    ust.Extends ⟨ust.refs ++ [w], store, ust.history⟩ := by
  refine ⟨fun i p hp => ?_, List.prefix_refl _⟩
  rw [List.getElem?_append_left (List.getElem?_eq_some_iff.mp hp).1, hp]

omit [DecidableEq ω] in
/-- More tables do not break an enclosure. -/
theorem encloses_of_prefix {held : τ → Set ℕ} {store store' : Store ω τ}
    (h : Encloses held store H) (hpre : store.tables <+: store'.tables)
    (hworld : store'.world = store.world) : Encloses held store' H := by
  refine ⟨fun i hi => (h.lt i hi).trans_le hpre.length_le, fun i hi c hc => ?_, ?_⟩
  · have hget : store'.tables[i]? = store.tables[i]? := by
      obtain ⟨more, hmore⟩ := hpre
      rw [← hmore, List.getElem?_append_left (h.lt i hi)]
    exact h.closed i hi c (hget.symm.trans hc)
  · rw [hworld]
    exact h.held

/-- **One more point is open**: it has the next index, and the decoder has
appended `w` for it. -/
theorem enter (h : Sim X opened done H st ust) {a : α} (hk : st.refs.index a = none)
    (hid : st.knownId (.ref a) = none) {w : Value (Point ω)} {store : Store ω τ}
    (hpre : ust.store.tables <+: store.tables) (hworld : store.world = ust.store.world)
    (hcell : (∃ t, X.graph a = .table t) ∨ ∃ type ctor, X.graph a = .object (.call type ctor))
    (htable : ∀ t, X.graph a = .table t → w = .ref (.table ust.store.tables.length)
      ∧ store.tables[ust.store.tables.length]? = some [])
    (hcall : ∀ type ctor, X.graph a = .object (.call type ctor) → w = .boolean false)
    (hw : ∀ j, w = .ref (.table j) →
      j = ust.store.tables.length ∧ j < store.tables.length) :
    Sim X (a :: opened) done H (st.mark a) ⟨ust.refs ++ [w], store, ust.history⟩ := by
  have hext := PackState.extends_mark hk
  have hext' := extends_push ust w store
  have hslot := slotOf_mark h.size a w store ust.history
  have hne := fun b hb => h.slotOf_mark_of_ne (a := a) (b := b) hb w store ust.history
  have hnew : ∀ b i, b ≠ a → slotOf st ust b = some (.ref (.table i)) →
      w ≠ .ref (.table i) := fun b i hb hs hwi =>
    absurd (h.bound b i hs) (by rw [(hw i hwi).1]; omega)
  have ha : a ∉ opened ∧ a ∉ done := by
    have := h.marked a
    rw [hk] at this
    simpa using this
  refine
    { size := by rw [List.length_append, PackState.mark_n, ← h.size]; rfl
      range := fun b k hb => ?_
      inj := fun b c k hb hc => ?_
      marked := fun b => ?_
      nodup := ?_
      known := fun b hb => by rw [PackState.mark_knownId]; exact h.known b hb
      knownId := fun b id hb => ?_
      entries := fun id hid => by rw [hworld]; exact h.entries id hid
      openCell := fun b hb => ?_
      openTable := fun b hb t ht => ?_
      openCall := fun b hb type ctor hG => ?_
      tableInj := fun b c i hb hc => ?_
      bound := fun b i hb => ?_
      history := h.history.imp (fun _ _ hr => hr.mono hext hext')
      frozen := fun i c hc => ?_
      encloses := encloses_of_prefix h.encloses hpre hworld
      nested := fun pre b post hd type ctor hG c hocc hc => ?_ }
  -- the new index is larger than all there were
  · have hn := PackState.mark_n st a
    have hpos : 1 ≤ st.refs.n := by
      have := h.size
      omega
    by_cases hba : b = a
    · rw [hba, PackState.mark_index_self] at hb
      have := Option.some.inj hb
      omega
    · rw [PackState.mark_index_of_ne st hba] at hb
      have := h.range b k hb
      omega
  · by_cases hba : b = a
    · by_cases hca : c = a
      · rw [hba, hca]
      · rw [hba, PackState.mark_index_self] at hb
        rw [PackState.mark_index_of_ne st hca] at hc
        have hlt := h.range c k hc
        have := Option.some.inj hb
        omega
    · rw [PackState.mark_index_of_ne st hba] at hb
      by_cases hca : c = a
      · rw [hca, PackState.mark_index_self] at hc
        have hlt := h.range b k hb
        have := Option.some.inj hc
        omega
      · rw [PackState.mark_index_of_ne st hca] at hc
        exact h.inj b c k hb hc
  · by_cases hba : b = a
    · simp [hba]
    · rw [PackState.mark_index_of_ne st hba, h.marked b]
      simp [hba]
  · rw [List.cons_append, List.nodup_cons, List.mem_append, not_or]
    exact ⟨ha, h.nodup⟩
  · rw [PackState.mark_knownId] at hb
    have hba : b ≠ a := fun hba => by
      rw [hba, hid] at hb
      exact absurd hb (by simp)
    rw [PackState.mark_index_of_ne st hba]
    exact h.knownId b id hb
  -- what is open: the new point, and those that were open before
  · rcases List.mem_cons.mp hb with rfl | hb
    · exact hcell
    · exact h.openCell b hb
  · by_cases hba : b = a
    · obtain ⟨hwt, hempty⟩ := htable t (hba ▸ ht)
      exact ⟨_, by rw [hba, hslot, hwt], fun hH => absurd (h.encloses.lt _ hH) (by omega),
        hempty⟩
    · obtain ⟨i, hs, hH, hempty⟩ := h.openTable b ((List.mem_cons.mp hb).resolve_left hba) t ht
      refine ⟨i, (hne b hba).trans hs, hH, ?_⟩
      obtain ⟨more, hmore⟩ := hpre
      rw [← hmore, List.getElem?_append_left (h.bound b i hs), hempty]
  · by_cases hba : b = a
    · rw [hba, hslot, hcall type ctor (hba ▸ hG)]
    · rw [hne b hba]
      exact h.openCall b ((List.mem_cons.mp hb).resolve_left hba) type ctor hG
  · by_cases hba : b = a
    · by_cases hca : c = a
      · rw [hba, hca]
      · rw [hba, hslot] at hb
        rw [hne c hca] at hc
        exact absurd (Option.some.inj hb) (hnew c i hca hc)
    · rw [hne b hba] at hb
      by_cases hca : c = a
      · rw [hca, hslot] at hc
        exact absurd (Option.some.inj hc) (hnew b i hba hb)
      · rw [hne c hca] at hc
        exact h.tableInj b c i hb hc
  · by_cases hba : b = a
    · rw [hba, hslot] at hb
      exact (hw i (Option.some.inj hb)).2
    · rw [hne b hba] at hb
      exact (h.bound b i hb).trans_le hpre.length_le
  -- no table there was is changed, as the decoder only makes a new one
  · rcases h.frozen i c hc with hH | hget
    · exact Or.inl hH
    · obtain ⟨more, hmore⟩ := hpre
      refine Or.inr ?_
      rw [← hmore, List.getElem?_append_left (List.getElem?_eq_some_iff.mp hget).1, hget]
  · rw [PackState.mark_knownId] at hc
    exact h.nested pre b post hd type ctor hG c hocc hc

/-- **An object's id is known** from now on. -/
theorem record (h : Sim X opened done H st ust) {a : α} {id : ℕ} {st' : PackState α}
    (hk : st.refs.index a = none) (hid : st.knownId (.ref a) = none)
    (hG : X.graph a = .object (.pack (some id) (.ref a))) (hst : st.record a id = some st') :
    Sim X opened done H st' ust := by
  have hext := PackState.extends_record hst hid
  obtain ⟨hrefs, hself, hother⟩ := PackState.record_eq hst
  have hnot : ¬ X.known a := fun ha => h.known a ha hid
  have hslot : ∀ b, slotOf st' ust b = slotOf st ust b := fun b => by
    rw [slotOf, slotOf, hrefs]
  refine
    { size := by rw [hrefs]; exact h.size
      range := by rw [hrefs]; exact h.range
      inj := by rw [hrefs]; exact h.inj
      marked := by rw [hrefs]; exact h.marked
      nodup := h.nodup
      known := fun b hb => ?_
      knownId := fun b id' hb => ?_
      entries := h.entries
      openCell := h.openCell
      openTable := fun b hb t ht => by rw [hslot]; exact h.openTable b hb t ht
      openCall := fun b hb type ctor hc => by rw [hslot]; exact h.openCall b hb type ctor hc
      tableInj := fun b c i hb hc => h.tableInj b c i (hslot b ▸ hb) (hslot c ▸ hc)
      bound := fun b i hb => h.bound b i (hslot b ▸ hb)
      history := h.history.imp (fun _ _ hr => hr.mono hext (.refl _))
      frozen := h.frozen
      encloses := h.encloses
      nested := fun pre b post hd type ctor hb c hocc hc => ?_ }
  · obtain ⟨id', hid'⟩ := Option.ne_none_iff_exists'.mp (h.known b hb)
    rw [hext.known b id' hid']
    simp
  · rw [hrefs]
    by_cases hba : b = a
    · rw [hba, hself] at hb
      obtain rfl := Option.some.inj hb
      rw [hba]
      exact ⟨hk, X.recorded a id hnot hG, Or.inr hG⟩
    · rw [hother b hba] at hb
      exact h.knownId b id' hb
  · refine h.nested pre b post hd type ctor hb c hocc ?_
    refine Option.eq_none_iff_forall_ne_some.mpr (fun id' hid' => ?_)
    rw [hext.known c id' hid'] at hc
    exact absurd hc (by simp)

/-! ### Closing a table -/

end Sim

/-- The state in which a table has got its entries. -/
def UnpackState.build (ust : UnpackState ω τ) (i : ℕ)
    (ps : List (Value (Point ω) × Value (Point ω))) : UnpackState ω τ :=
  { ust.setTables (ust.store.tables.modify i
      (fun c => ps.foldl (fun c p => assign p.1 p.2 c) c)) with
    history := ust.history ++ [.built i (fromPairs ps)] }

namespace Sim

variable {X : Exchange α ω τ} {opened done : List α} {a : α} {H : Set ℕ} {st : PackState α}
  {ust : UnpackState ω τ}

omit [DecidableEq α] in
theorem perm_close {opened done : List α} (a : α) :
    (a :: opened ++ done).Perm (opened ++ (done ++ [a])) := by
  rw [← List.append_assoc]
  exact (List.perm_append_singleton a (opened ++ done)).symm

omit [DecidableEq α] in
/-- **What is below a value that has been read stands for something**, if the
value does not lead back to an open point. -/
theorem decodes_of_occurs (h : Sim X opened done H st ust) {u v : Value α}
    (hocc : Occurs X.graph X.known u v) {w : Value (Point ω)}
    (hw : Decodes X.peer st ust u w)
    (hfree : ∀ o ∈ opened, ¬ Occurs X.graph X.known u (.ref o)) :
    ∃ w', Decodes X.peer st ust v w' := by
  induction hocc generalizing w with
  | self v => exact ⟨w, hw⟩
  | @part c x u hc hx hu ih =>
    have hx' : ∃ w, Decodes X.peer st ust x w := by
      cases hw with
      | slot hs =>
        have hdone := ((h.marked c).mp (index_of_slotOf hs)).resolve_left
          (fun ho => hfree c ho (.self _))
        obtain ⟨event, -, hr⟩ := h.rebuilt hdone
        exact hr.exists_decodes hx
      | @known _ id o hid ho =>
        -- it has recorded its id, and packs itself
        have hcell := (h.knownId c id hid).2.2.resolve_left hc
        rw [hcell] at hx
        obtain rfl := List.mem_singleton.mp hx
        exact ⟨_, .known hid ho⟩
    obtain ⟨w', hw'⟩ := hx'
    exact ih hw' (fun o ho hox => hfree o ho (.part hc hx hox))

omit [DecidableEq α] in
/-- What is below such a value has been rebuilt, unless it goes by an id. -/
theorem mem_done_of_occurs (h : Sim X opened done H st ust) {u : Value α} {b : α}
    (hocc : Occurs X.graph X.known u (.ref b)) {w : Value (Point ω)}
    (hw : Decodes X.peer st ust u w)
    (hfree : ∀ o ∈ opened, ¬ Occurs X.graph X.known u (.ref o))
    (hb : st.knownId (.ref b) = none) : b ∈ done := by
  obtain ⟨w', hw'⟩ := h.decodes_of_occurs hocc hw hfree
  cases hw' with
  | slot hs =>
    exact ((h.marked b).mp (index_of_slotOf hs)).resolve_left (fun ho => hfree b ho hocc)
  | known hid _ => exact absurd (hb.symm.trans hid) (by simp)

/-- The last of a list, or one before it. -/
theorem append_cons_eq_concat {β : Type} {pre post l : List β} {x a : β}
    (h : pre ++ x :: post = l ++ [a]) :
    pre = l ∧ x = a ∨ ∃ post', l = pre ++ x :: post' := by
  rcases List.eq_nil_or_concat post with rfl | ⟨post', c, rfl⟩
  · obtain ⟨rfl, hx⟩ := List.append_inj' h rfl
    exact Or.inl ⟨rfl, (List.cons.inj hx).1⟩
  · rw [List.concat_eq_append, ← List.cons_append, ← List.append_assoc] at h
    obtain ⟨hl, -⟩ := List.append_inj' h rfl
    exact Or.inr ⟨post', hl.symm⟩

omit [DecidableEq ω] in
theorem extends_build [DecidableEq ω] (ust : UnpackState ω τ) (i : ℕ)
    (ps : List (Value (Point ω) × Value (Point ω))) : ust.Extends (ust.build i ps) :=
  ⟨fun _ _ h => h, List.prefix_append _ _⟩

omit [DecidableEq α] in
/-- **A table whose elements have been read is done** when it has got its
entries. -/
theorem closeTable (h : Sim X (a :: opened) done H st ust) {t : Table α}
    (hG : X.graph a = .table t) {i : ℕ} (hs : slotOf st ust a = some (.ref (.table i)))
    {ps : List (Value (Point ω) × Value (Point ω))}
    (hps : List.Forall₂ (fun p q => Decodes X.peer st ust p.1 q.1
      ∧ Decodes X.peer st ust p.2 q.2) t.pairs ps) :
    Sim X opened (done ++ [a]) H st (ust.build i ps) := by
  have hext := extends_build ust i ps
  have hslot : ∀ b, slotOf st (ust.build i ps) b = slotOf st ust b := fun _ => rfl
  -- the table of an open point is empty, and in no enclosure of the receiver's
  obtain ⟨j, hj, hH, hempty⟩ := h.openTable a List.mem_cons_self t hG
  obtain rfl : j = i := by
    have := hj.symm.trans hs
    simpa using this
  have hi : (ust.build j ps).store.tables[j]? = some (fromPairs ps) := by
    show (ust.store.tables.modify j _)[j]? = _
    rw [List.getElem?_modify_eq, hempty]
    rfl
  have hother : ∀ k, k ≠ j → (ust.build j ps).store.tables[k]? = ust.store.tables[k]? := by
    intro k hk
    show (ust.store.tables.modify j _)[k]? = _
    rw [List.getElem?_modify_ne _ _ (Ne.symm hk)]
  have hlen : (ust.build j ps).store.tables.length = ust.store.tables.length :=
    List.length_modify ..
  refine
    { size := h.size
      range := h.range
      inj := h.inj
      marked := fun b => ?_
      nodup := (perm_close a).nodup_iff.mp h.nodup
      known := h.known
      knownId := h.knownId
      entries := h.entries
      openCell := fun b hb => h.openCell b (List.mem_cons_of_mem a hb)
      openTable := fun b hb t' ht => ?_
      openCall := fun b hb => h.openCall b (List.mem_cons_of_mem a hb)
      tableInj := h.tableInj
      bound := fun b k hb => by rw [hlen]; exact h.bound b k hb
      history := ?_
      frozen := fun k c hc => ?_
      encloses := ⟨fun k hk => by rw [hlen]; exact h.encloses.lt k hk, fun k hk c hc => ?_,
        h.encloses.held⟩
      nested := fun pre b post hd type ctor hb c hocc hc => ?_ }
  · rw [h.marked b]
    simp only [List.mem_cons, List.mem_append, List.not_mem_nil, or_false]
    tauto
  -- the tables of the other open points are other tables
  · obtain ⟨k, hk, hkH, hkempty⟩ := h.openTable b (List.mem_cons_of_mem a hb) t' ht
    refine ⟨k, hk, hkH, ?_⟩
    rw [hother k (fun hkj => ?_), hkempty]
    have hba : b = a := h.tableInj b a j (hkj ▸ hk) hs
    exact (List.nodup_cons.mp h.nodup).1 (List.mem_append_left _ (hba ▸ hb))
  · refine List.rel_append (h.history.imp (fun _ _ hr => hr.mono (.refl _) hext)) ?_
    exact .cons (.table hG hs (hps.imp (fun _ _ hq =>
      ⟨hq.1.mono (.refl _) hext, hq.2.mono (.refl _) hext⟩))) .nil
  · rcases List.mem_append.mp hc with hc | hc
    · rcases h.frozen k c hc with hkH | hget
      · exact Or.inl hkH
      · refine Or.inr ?_
        rw [hother k (fun hkj => ?_), hget]
        obtain ⟨b, hb, hr⟩ := h.exists_done_of_built hc
        obtain rfl := h.tableInj b a j (hkj ▸ hr) hs
        exact (List.nodup_cons.mp h.nodup).1 (List.mem_append_right _ hb)
    · obtain ⟨rfl, rfl⟩ := Event.built.inj (List.mem_singleton.mp hc)
      exact Or.inr hi
  · rw [hother k (fun hkj => hH (hkj ▸ hk))] at hc
    exact h.encloses.closed k hk c hc
  -- a table is nested in nothing, and the others are as they were
  · rcases append_cons_eq_concat hd.symm with ⟨-, rfl⟩ | ⟨post', hd'⟩
    · exact absurd (hG.symm.trans hb) (by simp)
    · exact h.nested pre b post' hd' type ctor hb c hocc hc

/-! ### Closing a call object -/

/-- The tables that were rebuilt for what is below a value. -/
def tablesBelow (X : Exchange α ω τ) (st : PackState α) (ust : UnpackState ω τ)
    (v : Value α) : Set ℕ :=
  {i | ∃ b, Occurs X.graph X.known v (.ref b) ∧ slotOf st ust b = some (.ref (.table i))}

omit [DecidableEq α] in
/-- **The tables below a constructor are an enclosure**, with those the
receiver's code has got hold of before: all of them are done, and what is in
them is below the constructor again. -/
theorem encloses_below (h : Sim X opened done H st ust) {v : Value α}
    (hfree : ∀ o ∈ opened, ¬ Occurs X.graph X.known v (.ref o)) :
    Encloses X.held ust.store (H ∪ tablesBelow X st ust v) := by
  refine ⟨fun i hi => ?_, fun i hi c hc p hp j hj => ?_,
    h.encloses.held.trans Set.subset_union_left⟩
  · rcases hi with hi | ⟨b, -, hs⟩
    · exact h.encloses.lt i hi
    · exact h.bound b i hs
  · rcases hi with hi | ⟨b, hocc, hs⟩
    · exact Or.inl (h.encloses.closed i hi c hc p hp j hj)
    · have hne := index_of_slotOf hs
      have hb : b ∈ done := ((h.marked b).mp hne).resolve_left (fun ho => hfree b ho hocc)
      obtain ⟨event, hevent, hr⟩ := h.rebuilt hb
      cases hr with
      | call _ hslot _ _ => exact absurd (hslot.symm.trans hs) (by simp)
      | @table t i' ps hG hslot hps =>
        obtain rfl : i' = i := by
          have := hslot.symm.trans hs
          simpa using this
        rcases h.frozen i' _ hevent with hH | hget
        · exact Or.inl (h.encloses.closed i' hH c hc p hp j hj)
        · obtain rfl := Option.some.inj (hget.symm.trans hc)
          obtain ⟨q, hq, hdec⟩ := exists_mem_of_forall₂ hps.flip (mem_fromPairs hp)
          -- the entry came from a part, and only a rebuilt table stands for a table
          have hpart : ∀ {x : Value α} {w : Value (Point ω)}, x ∈ (X.graph b).parts →
              Decodes X.peer st ust x w → w = .ref (.table j) →
              j ∈ tablesBelow X st ust v := by
            intro x w hx hdec hw
            cases hdec with
            | @slot d p hs' =>
              obtain rfl := Value.ref.inj hw
              exact ⟨d, hocc.tail (h.not_known hne) hx, hs'⟩
            | known _ _ => exact absurd hw (by simp)
            | _ => exact absurd hw (by simp)
          have helems : q.1 ∈ (X.graph b).parts ∧ q.2 ∈ (X.graph b).parts := by
            rw [hG]
            exact ⟨List.mem_flatMap.mpr ⟨q, hq, by simp⟩,
              List.mem_flatMap.mpr ⟨q, hq, by simp⟩⟩
          rcases hj with hj | hj
          · exact Or.inr (hpart helems.1 hdec.1 hj)
          · exact Or.inr (hpart helems.2 hdec.2 hj)

/-- **A call object is done** when `__unpack` has answered. -/
theorem closeCall (h : Sim X (a :: opened) done H st ust) {type ctor : Value α}
    (hG : X.graph a = .object (.call type ctor)) {k : ℕ} (hk : st.refs.index a = some k)
    (hfree : ∀ o ∈ a :: opened, ¬ Occurs X.graph X.known ctor (.ref o))
    {wt wc : Value (Point ω)} (htype : Decodes X.peer st ust type wt)
    (hctor : Decodes X.peer st ust ctor wc) {store : Store ω τ}
    (hkeeps : KeepsTo X.held (H ∪ tablesBelow X st ust ctor) ust.store store)
    (hentries : ∀ id ∈ X.ids, X.receiver.entry store.world id
      = X.receiver.entry ust.store.world id) (o : ω) :
    Sim X opened (done ++ [a]) (H ∪ tablesBelow X st ust ctor ∪ newTables ust.store store) st
        ⟨ust.refs.set (k - 1) (.ref (.object o)), store,
          ust.history ++ [.called wt wc (.ok (.ref (.object o)))]⟩
      ∧ ust.Extends ⟨ust.refs.set (k - 1) (.ref (.object o)), store,
          ust.history ++ [.called wt wc (.ok (.ref (.object o)))]⟩ := by
  set ust' : UnpackState ω τ := ⟨ust.refs.set (k - 1) (.ref (.object o)), store,
    ust.history ++ [.called wt wc (.ok (.ref (.object o)))]⟩ with hust'
  have hrange := h.range a k hk
  have hsize := h.size
  -- until now the marker `false` was in the place of the object
  have hmarker : ust.refs[k - 1]? = some (.boolean false) := by
    have := h.openCall a List.mem_cons_self type ctor hG
    rwa [slotOf, hk] at this
  have hself : slotOf st ust' a = some (.ref (.object o)) := by
    rw [slotOf, hk]
    show (ust.refs.set (k - 1) _)[k - 1]? = _
    rw [List.getElem?_set_self (by omega)]
  have hother : ∀ b, b ≠ a → slotOf st ust' b = slotOf st ust b := by
    intro b hb
    rw [slotOf, slotOf]
    rcases hi : st.refs.index b with _ | j
    · rfl
    · have hj := h.range b j hi
      have hne : k ≠ j := fun hkj => hb (h.inj b a k (hkj ▸ hi) hk)
      show (ust.refs.set (k - 1) _)[j - 1]? = _
      rw [List.getElem?_set_ne (by omega)]
      rfl
  have hext : ust.Extends ust' := by
    refine ⟨fun i p hp => ?_, List.prefix_append _ _⟩
    show (ust.refs.set (k - 1) _)[i]? = _
    have hne : k - 1 ≠ i := fun hi => by
      rw [← hi, hmarker] at hp
      exact absurd hp (by simp)
    rw [List.getElem?_set_ne hne, hp]
  refine ⟨?_, hext⟩
  have htable : ∀ b i, slotOf st ust' b = some (.ref (.table i)) →
      slotOf st ust b = some (.ref (.table i)) := fun b i hb => by
    by_cases hba : b = a
    · rw [hba, hself] at hb
      exact absurd hb (by simp)
    · exact (hother b hba) ▸ hb
  have hne : ∀ b ∈ opened, b ≠ a := fun b hb hba =>
    (List.nodup_cons.mp h.nodup).1 (List.mem_append_left _ (hba ▸ hb))
  refine
    { size := by rw [hust', List.length_set]; exact h.size
      range := h.range
      inj := h.inj
      marked := fun b => ?_
      nodup := (perm_close a).nodup_iff.mp h.nodup
      known := h.known
      knownId := h.knownId
      entries := fun id hid => (hentries id hid).trans (h.entries id hid)
      openCell := fun b hb => h.openCell b (List.mem_cons_of_mem a hb)
      openTable := fun b hb t ht => ?_
      openCall := fun b hb type' ctor' hc => by
        rw [hother b (hne b hb)]
        exact h.openCall b (List.mem_cons_of_mem a hb) type' ctor' hc
      tableInj := fun b c i hb hc => h.tableInj b c i (htable b i hb) (htable c i hc)
      bound := fun b i hb => (h.bound b i (htable b i hb)).trans_le hkeeps.length_le
      history := ?_
      frozen := fun i c hc => ?_
      encloses := hkeeps.encloses
      nested := fun pre b post hd type' ctor' hb c hocc hc => ?_ }
  · rw [h.marked b]
    simp only [List.mem_cons, List.mem_append, List.not_mem_nil, or_false]
    tauto
  -- the receiver's code has kept to what is below the constructor, and an open table is not
  · obtain ⟨i, hs, hH, hempty⟩ := h.openTable b (List.mem_cons_of_mem a hb) t ht
    have hbelow : i ∉ tablesBelow X st ust ctor := by
      rintro ⟨c, hocc, hc⟩
      obtain rfl := h.tableInj b c i hs hc
      exact hfree b (List.mem_cons_of_mem a hb) hocc
    have hlt := h.bound b i hs
    refine ⟨i, (hother b (hne b hb)).trans hs, ?_, ?_⟩
    · rintro ((hi | hi) | hi)
      · exact hH hi
      · exact hbelow hi
      · exact absurd hi.1 (by omega)
    · rw [← hempty]
      exact hkeeps.same i hlt (fun hi => hi.elim hH hbelow)
  · refine List.rel_append (h.history.imp (fun _ _ hr => hr.mono (.refl _) hext)) ?_
    exact .cons (.call hG hself (htype.mono (.refl _) hext) (hctor.mono (.refl _) hext)) .nil
  -- what the code may have changed is in the enclosure from now on
  · have hc' : .built i c ∈ ust.history := by
      rcases List.mem_append.mp hc with hc | hc
      · exact hc
      · exact absurd (List.mem_singleton.mp hc) (by simp)
    by_cases hi : i ∈ H ∪ tablesBelow X st ust ctor
    · exact Or.inl (Or.inl hi)
    · obtain ⟨b, -, hs⟩ := h.exists_done_of_built hc'
      refine Or.inr ?_
      rw [← (h.frozen i c hc').resolve_left (fun hH => hi (Or.inl hH))]
      exact hkeeps.same i (h.bound b i hs) hi
  · rcases append_cons_eq_concat hd.symm with ⟨rfl, rfl⟩ | ⟨post', hd'⟩
    · have heq := hG.symm.trans hb
      simp only [Cell.object.injEq, PackAnswer.call.injEq] at heq
      obtain ⟨-, rfl⟩ := heq
      exact h.mem_done_of_occurs hocc hctor hfree hc
    · exact h.nested pre b post' hd' type' ctor' hb c hocc hc

end Sim

end Box

end Felt
