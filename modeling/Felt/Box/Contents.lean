import Felt.Box.Peers

/-!
# What a table arrives with

A table that is sent by itself is the last thing its receiver has built, so
what it holds when `box.unpack` returns is what the history says it was built
with (`Arrives.contents`): the images of the sender's pairs, assigned one after
the other. Two pairs whose keys have become one key leave one entry.

The history has what a table was built with, and not what it holds now, as the
receiver's code may have changed it in between. For the last table there is no
in between. This is the form in which the round trip is used for calls
(`Felt.Net.Call`): the table of a call is read by its receiver as soon as it has
arrived.
-/

namespace Felt

namespace Box

variable {α ω τ β : Type} [DecidableEq α] [DecidableEq ω] [DecidableEq β]

/-! ## Reading a table -/

/-- `t[k]`, for a table with these contents. -/
def rawget (c : List (Value β × Value β)) (k : Value β) : Value β :=
  ((c.find? (fun p => p.1 = k)).map Prod.snd).getD .nil

theorem rawget_cons (p : Value β × Value β) (c : List (Value β × Value β)) (k : Value β) :
    rawget (p :: c) k = if p.1 = k then p.2 else rawget c k := by
  by_cases h : p.1 = k <;> simp [rawget, h]

theorem rawget_assign {k v : Value β} (hv : v ≠ .nil) (c : List (Value β × Value β))
    (k' : Value β) : rawget (assign k v c) k' = if k = k' then v else rawget c k' := by
  induction c with
  | nil => simp [assign, hv, rawget_cons]
  | cons p c ih =>
    rw [assign]
    by_cases hp : p.1 = k
    · simp only [if_pos hp, if_neg hv, rawget_cons]
      by_cases hk : k = k'
      · simp [hk]
      · simp [hk, hp]
    · simp only [if_neg hp, rawget_cons, ih]
      by_cases hk : k = k'
      · subst hk
        simp [hp]
      · simp [hk]

theorem fromPairs_concat (ps : List (Value β × Value β)) (p : Value β × Value β) :
    fromPairs (ps ++ [p]) = assign p.1 p.2 (fromPairs ps) := by
  simp [fromPairs]

/-- **A key that was assigned has a value**, one of those it was assigned, and
every other key has none. -/
theorem rawget_fromPairs {ps : List (Value β × Value β)} (hv : ∀ p ∈ ps, p.2 ≠ .nil)
    (k : Value β) : (k ∉ ps.map Prod.fst ∧ rawget (fromPairs ps) k = .nil)
      ∨ (k, rawget (fromPairs ps) k) ∈ ps := by
  induction ps using List.reverseRecOn with
  | nil => exact Or.inl ⟨by simp, rfl⟩
  | append_singleton ps p ih =>
    rw [fromPairs_concat, rawget_assign (hv p (by simp))]
    by_cases hk : p.1 = k
    · rw [if_pos hk]
      exact Or.inr (by simp [← hk])
    · rw [if_neg hk]
      rcases ih (fun q hq => hv q (by simp [hq])) with ⟨hnot, hnil⟩ | hmem
      · exact Or.inl ⟨by simpa [Ne.symm hk] using hnot, hnil⟩
      · exact Or.inr (List.mem_append_left _ hmem)

/-- A key that has a value is there. -/
theorem mem_keys_of_rawget {c : List (Value β × Value β)} {k : Value β}
    (h : rawget c k ≠ .nil) : k ∈ c.map Prod.fst := by
  induction c with
  | nil => exact absurd rfl h
  | cons p c ih =>
    rw [rawget_cons] at h
    by_cases hp : p.1 = k
    · simp [hp]
    · rw [if_neg hp] at h
      exact List.mem_cons_of_mem _ (ih h)

theorem length_assign {k v : Value β} (hv : v ≠ .nil) (c : List (Value β × Value β)) :
    (assign k v c).length = if k ∈ c.map Prod.fst then c.length else c.length + 1 := by
  induction c with
  | nil => simp [assign, hv]
  | cons p c ih =>
    rw [assign]
    by_cases hp : p.1 = k
    · simp [hp, hv]
    · have hcons : k ∈ (p :: c).map Prod.fst ↔ k ∈ c.map Prod.fst := by
        simp [Ne.symm hp]
      rw [if_neg hp, List.length_cons, ih, List.length_cons]
      simp only [hcons]
      split <;> rfl

theorem length_fromPairs_le {ps : List (Value β × Value β)} (hv : ∀ p ∈ ps, p.2 ≠ .nil) :
    (fromPairs ps).length ≤ ps.length := by
  induction ps using List.reverseRecOn with
  | nil => exact le_rfl
  | append_singleton ps p ih =>
    rw [fromPairs_concat, length_assign (hv p (by simp)), List.length_append,
      List.length_singleton]
    have := ih (fun q hq => hv q (by simp [hq]))
    split <;> omega

/-- **Two pairs under one key leave one entry**, so none is lost exactly when
the keys are different. -/
theorem length_fromPairs_eq_iff {ps : List (Value β × Value β)} (hv : ∀ p ∈ ps, p.2 ≠ .nil) :
    (fromPairs ps).length = ps.length ↔ (ps.map Prod.fst).Nodup := by
  refine ⟨fun h => ?_, fun h => by rw [fromPairs_eq_self h hv]⟩
  induction ps using List.reverseRecOn with
  | nil => exact .nil
  | append_singleton ps p ih =>
    have hps : ∀ q ∈ ps, q.2 ≠ .nil := fun q hq => hv q (by simp [hq])
    have hle := length_fromPairs_le hps
    rw [fromPairs_concat, length_assign (hv p (by simp)), List.length_append,
      List.length_singleton] at h
    split at h
    · omega
    · next hnew =>
      rw [List.map_append, List.nodup_append]
      refine ⟨ih hps (by omega), List.nodup_singleton _, fun k hk k' hk' => ?_⟩
      obtain rfl := List.mem_singleton.mp hk'
      rintro rfl
      rcases rawget_fromPairs hps p.1 with ⟨hnot, -⟩ | hmem
      · exact hnot hk
      · exact hnew (mem_keys_of_rawget (hps _ hmem))

omit [DecidableEq α] [DecidableEq ω] in
/-- Nothing but `nil` arrives as `nil`. -/
theorem decode_ne_nil (φ : α → Point ω) {v : Value α} (hv : v ≠ .nil) : decode φ v ≠ .nil := by
  cases v with
  | nil => exact absurd rfl hv
  | _ => simp [decode]

/-! ## The last table -/

/-- **A table that was unpacked by itself was the last to be built.** -/
theorem history_of_unpack_table {A : Arith} {R : Receiver ω τ} {fuel : ℕ} {buf : Bytes}
    {store : Store ω τ} {w : Value (Point ω)} {ust : UnpackState ω τ}
    (h : unpack A R fuel (84 :: buf) store = .ok w ust) :
    ∃ i before, w = .ref (.table i)
      ∧ ust.history = before ++ [.built i (ust.store.tables.getD i [])] := by
  cases fuel with
  | zero => exact absurd h (by simp [unpack, doUnpack])
  | succ fuel =>
    rw [unpack, doUnpack_table] at h
    obtain ⟨elements, st₁, -, hrest⟩ := Run.bind_eq_ok.mp h
    obtain ⟨data, st₂, -, hrest⟩ := Run.bind_eq_ok.mp hrest
    obtain ⟨_, st₃, -, hlast⟩ := Run.bind_eq_ok.mp hrest
    rw [note, Run.modify_bind] at hlast
    obtain ⟨rfl, rfl⟩ := Outcome.ok.inj hlast
    exact ⟨_, st₃.history, rfl, rfl⟩

omit [DecidableEq ω] in
/-- What is written for a table starts with its tag. -/
theorem exists_of_pack_table {G : Graph α} {objs : α → Option ℕ} {a : α} {t : Table α}
    (ha : objs a = none) (hG : G a = .table t) {fuel : ℕ} {b : Bytes} {st : PackState α}
    (h : pack G (some objs) fuel (.ref a) = .ok b st) : ∃ buf, b = 84 :: buf := by
  cases fuel with
  | zero => exact absurd h (by simp [pack, doPack])
  | succ fuel =>
    cases packStep_of_doPack h with
    | ref hk => exact absurd hk (by simp [Refs.lookup, Refs.initial])
    | obj _ hid => exact absurd hid (by simp [PackState.knownId, ha])
    | scalar _ hb => exact absurd hb (by simp [scalarText])
    | table _ _ hG' hdata => exact ⟨_, rfl⟩
    | raw _ _ hG' => exact absurd (hG.symm.trans hG') (by simp)
    | pack _ _ hG' _ => exact absurd (hG.symm.trans hG') (by simp)
    | record _ _ hG' _ _ => exact absurd (hG.symm.trans hG') (by simp)
    | call _ _ hG' _ => exact absurd (hG.symm.trans hG') (by simp)

/-- **A table arrives with the images of its pairs**, assigned in the order they
were enumerated. -/
theorem Arrives.contents {G : Graph α} {objs : α → Option ℕ} {R : Receiver ω τ}
    {store : Store ω τ} {a : α} {t : Table α} {w : Value (Point ω)} {ust : UnpackState ω τ}
    {φ : α → Point ω} {order : List α} (h : Arrives G objs R store (.ref a) w ust φ order)
    (ha : objs a = none) (hG : G a = .table t) {fuel fuel' : ℕ} {b : Bytes} {st : PackState α}
    (hp : pack G (some objs) fuel (.ref a) = .ok b st)
    (hu : unpack .ideal R fuel' b store = .ok w ust) :
    ∃ i, w = .ref (.table i) ∧ φ a = .table i ∧ ust.store.tables.getD i []
      = fromPairs (t.pairs.map (fun p => (decode φ p.1, decode φ p.2))) := by
  obtain ⟨buf, rfl⟩ := exists_of_pack_table ha hG hp
  obtain ⟨i, before, hw, hhistory⟩ := history_of_unpack_table hu
  have hφ : φ a = .table i := by
    have := hw.symm.trans h.value
    simpa [decode, eq_comm] using this
  have hlast : Event.built i (ust.store.tables.getD i []) ∈ ust.history := by
    rw [hhistory]
    simp
  obtain ⟨c, hc, hr⟩ := exists_mem_of_forall₂ h.history.flip hlast
  have hmem : a ∈ order := (h.rebuilt a).mpr
    ⟨.self _, by simp [ha], Or.inl ⟨t, hG⟩⟩
  refine ⟨i, hw, hφ, ?_⟩
  generalize ust.store.tables.getD i [] = contents at hr
  cases hr with
  | @table t' _ hG' hφ' =>
    obtain rfl := h.inj a c i hmem hc hφ hφ'
    obtain rfl : t' = t := by
      have := hG'.symm.trans hG
      simpa using this
    rfl

end Box

end Felt
