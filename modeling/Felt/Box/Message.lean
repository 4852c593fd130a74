import Felt.Box.Pack

/-!
# Messages

What one peer can send another: scalars, tables, objects the other side knows
or will be told the id of, and objects that are rebuilt from a constructor.
`Occurs` is what is below a value as it is packed – an object that is known
goes by its id, so nothing below it is looked at. `IsMessage` says of a graph
that the codec handles all of it; its only condition on shape is that an
object is not needed to rebuild itself.

`doPack_returns` is what that is for: a message is packed, without an error.

What makes a message fit to be sent is all on the side of the sender: what each
point is, that its parts can be written, and that whoever is rebuilt from a
constructor is not in it. What the receiver has to know for it to arrive is
`Exchange`. The two are kept apart because packing may fail on the one side only:
`doPack_ne_error` needs nothing from a receiver.
-/

namespace Felt

/-- What a cell is made of, in the order it is packed. -/
def Cell.parts {α : Type} : Cell α → List (Value α)
  | .table t => t.elements
  | .object (.call type arg) => [type, arg]
  | .object (.pack _ obj) => [obj]
  | .object _ => []

/-- What can be packed: no function, thread or userdatum. -/
def Value.Sendable {α : Type} : Value α → Prop
  | .foreign _ => False
  | _ => True

instance {α : Type} : (v : Value α) → Decidable v.Sendable
  | .foreign _ => isFalse id
  | .nil | .boolean _ | .number _ | .string _ | .ref _ => isTrue trivial

namespace Box

variable {α : Type}

/-- **`u` occurs in `v`**, when the receiver has the objects in `known`. -/
inductive Occurs (G : Graph α) (known : α → Prop) : Value α → Value α → Prop where
  /-- A value occurs in itself. -/
  | self (v : Value α) : Occurs G known v v
  /-- What occurs in a part occurs in the whole. -/
  | part {a : α} {x u : Value α} (ha : ¬ known a) (hx : x ∈ (G a).parts)
      (hu : Occurs G known x u) : Occurs G known (.ref a) u

theorem Occurs.trans {G : Graph α} {known : α → Prop} {u v w : Value α}
    (huv : Occurs G known u v) (hvw : Occurs G known v w) : Occurs G known u w := by
  induction huv with
  | self v => exact hvw
  | part ha hx _ ih => exact .part ha hx (ih hvw)

/-- What is below a part is below the whole. -/
theorem Occurs.tail {G : Graph α} {known : α → Prop} {v x : Value α} {a : α}
    (h : Occurs G known v (.ref a)) (ha : ¬ known a) (hx : x ∈ (G a).parts) :
    Occurs G known v x :=
  h.trans (.part ha hx (.self x))

/-- What has a property that every point hands down to its parts has only
values with it below. -/
theorem Occurs.preserves {G : Graph α} {known : α → Prop} {P : Value α → Prop}
    (hP : ∀ a, ¬ known a → P (.ref a) → ∀ x ∈ (G a).parts, P x) {u v : Value α}
    (h : Occurs G known u v) (hu : P u) : P v := by
  induction h with
  | self v => exact hu
  | part ha hx _ ih => exact ih (hP _ ha hu _ hx)

/-- **A graph the codec handles**, apart from the objects in `known`, which
need not be looked at. -/
structure IsMessage (G : Graph α) (known : α → Prop) : Prop where
  /-- There are tables, objects that name a type and a constructor, and
  objects that record their id. -/
  cell : ∀ a, ¬ known a → (∃ t, G a = .table t)
    ∨ (∃ type ctor, G a = .object (.call (.string type) ctor))
    ∨ ∃ id, G a = .object (.pack (some id) (.ref a))
  /-- They are made of what can be sent. -/
  sendable : ∀ a, ¬ known a → ∀ x ∈ (G a).parts, x.Sendable
  /-- No object is reachable from its own constructor. -/
  acyclic : ∀ a type ctor, ¬ known a → G a = .object (.call type ctor) →
    ¬ Occurs G known ctor (.ref a)

section Returns

variable [DecidableEq α] {G : Graph α} {known : α → Prop}

omit [DecidableEq α] in
/-- The type of a call object is its name. -/
theorem IsMessage.exists_type (hG : IsMessage G known) {a : α} (ha : ¬ known a)
    {type ctor : Value α} (hcell : G a = .object (.call type ctor)) :
    ∃ s, type = .string s := by
  rcases hG.cell a ha with ⟨t, h⟩ | ⟨s, ctor', h⟩ | ⟨id, h⟩
  · exact absurd (h.symm.trans hcell) (by simp)
  · have heq := h.symm.trans hcell
    simp only [Cell.object.injEq, PackAnswer.call.injEq] at heq
    exact ⟨s, heq.1.symm⟩
  · exact absurd (h.symm.trans hcell) (by simp)

omit [DecidableEq α] in
/-- An object that answers `"pack"` has recorded its id and packs itself. -/
theorem IsMessage.isSome_and_eq (hG : IsMessage G known) {a : α} (ha : ¬ known a)
    {record : Option ℕ} {w : Value α} (hcell : G a = .object (.pack record w)) :
    record.isSome = true ∧ w = .ref a := by
  rcases hG.cell a ha with ⟨t, h⟩ | ⟨s, ctor', h⟩ | ⟨id, h⟩
  · exact absurd (h.symm.trans hcell) (by simp)
  · exact absurd (h.symm.trans hcell) (by simp)
  · have heq := h.symm.trans hcell
    simp only [Cell.object.injEq, PackAnswer.pack.injEq] at heq
    exact ⟨by rw [← heq.1]; rfl, heq.2.symm⟩

omit [DecidableEq α] in
theorem IsMessage.settles (hG : IsMessage G known) {st : PackState α}
    (hknown : ∀ a, known a → st.knownId (.ref a) ≠ none) : Settles G st :=
  fun a _ _ hid ha => hG.isSome_and_eq (fun h => hknown a h hid) ha

omit [DecidableEq α] in
theorem mapList_ne_error {pk : Value α → Run (PackState α) BoxError Bytes}
    (st₀ : PackState α) {l : List (Value α)}
    (h : ∀ v ∈ l, ∀ st e st', st₀.Extends st → pk v st ≠ .error e st')
    (hext : ∀ v st b st', pk v st = .ok b st' → st.Extends st') {st st' : PackState α}
    (hst : st₀.Extends st) (e : BoxError) : Run.mapList pk l st ≠ .error e st' := by
  induction l generalizing st with
  | nil => simp
  | cons v l ih =>
    rw [Run.mapList_cons]
    intro herr
    rcases Run.bind_eq_error.mp herr with hv | ⟨b, st₁, hv, hrest⟩
    · exact h v List.mem_cons_self st e st' hst hv
    · rcases Run.bind_eq_error.mp hrest with hl | ⟨data, st₂, -, hp⟩
      · exact ih (fun w hw => h w (List.mem_cons_of_mem v hw))
          (hst.trans (hext v st b st₁ hv)) hl
      · exact absurd hp (by simp)

/-- Nothing is recorded without a table to record it in. -/
def RecordsIn (G : Graph α) (known : α → Prop) (st : PackState α) : Prop :=
  ∀ a id, ¬ known a → G a = .object (.pack (some id) (.ref a)) → st.objs.isSome = true

/-- **Packing a message raises no error.** -/
theorem doPack_ne_error (hG : IsMessage G known) {fuel : ℕ} {v : Value α}
    {st st' : PackState α} (hknown : ∀ a, known a → st.knownId (.ref a) ≠ none)
    (hobjs : RecordsIn G known st) (hv : v.Sendable) (e : BoxError) :
    doPack G fuel v st ≠ .error e st' := by
  induction fuel generalizing v st st' e with
  | zero => simp [doPack]
  | succ fuel ih =>
    -- what is known stays so, whatever is packed in front
    have hmono : ∀ {st₁ : PackState α}, st.Extends st₁ →
        (∀ a, known a → st₁.knownId (.ref a) ≠ none) ∧ RecordsIn G known st₁ := by
      intro st₁ hext
      refine ⟨fun a ha => ?_, fun a id ha hid => hext.objs.trans (hobjs a id ha hid)⟩
      obtain ⟨id, hid⟩ := Option.ne_none_iff_exists'.mp (hknown a ha)
      rw [hext.known a id hid]
      simp
    have hlist : ∀ {a : α}, st.refs.index a = none → ¬ known a → ∀ st₁ e,
        Run.mapList (doPack G fuel) (G a).parts (st.mark a) ≠ .error e st₁ := by
      intro a hk ha st₁ e
      refine mapList_ne_error st (fun x hx st₂ e st₃ hext => ?_)
        (fun v st b st' h => extends_of_doPack h) (PackState.extends_mark hk) e
      exact ih (hmono hext).1 (hmono hext).2 (hG.sendable a ha x hx) e
    rw [doPack, Run.get_bind]
    intro herr
    cases hk : st.refs.lookup v with
    | some k => simp [hk] at herr
    | none =>
      cases hid : st.knownId v with
      | some id => simp [hk, hid] at herr
      | none =>
        simp only [hk, hid] at herr
        cases v with
        | foreign type => exact hv
        | ref a =>
          have ha : ¬ known a := fun h => hknown a h hid
          -- a table, a call object, or one that has just recorded its id and is packed again
          rcases hG.cell a ha with ⟨t, hcell⟩ | ⟨type, ctor, hcell⟩ | ⟨id, hcell⟩
          · have hparts := hlist hk ha
            simp only [hcell] at herr hparts
            simp only [packTable, Run.modify_bind] at herr
            rcases Run.bind_eq_error.mp herr with h | ⟨data, st₁, -, h⟩
            · exact hparts _ _ h
            · exact absurd h (by simp)
          · have hparts := hlist hk ha
            simp only [hcell] at herr hparts
            simp only [packMetamethod, Run.modify_bind] at herr
            rcases Run.bind_eq_error.mp herr with h | ⟨data, st₁, -, h⟩
            · exact hparts _ _ h
            · exact absurd h (by simp)
          · simp only [hcell, packMetamethod, Run.get_bind] at herr
            obtain ⟨objs, ho⟩ := Option.isSome_iff_exists.mp (hobjs a id ha hcell)
            have hst : st.record a id = some
                { st with objs := some (Function.update objs a (some id)) } := by
              rw [PackState.record, ho]
              rfl
            rw [hst, Run.bind_of_ok (Run.assertSome_some _ _ _), Run.modify_bind] at herr
            have hext := PackState.extends_record hst hid
            exact ih (v := .ref a) (hmono hext).1 (hmono hext).2 trivial e herr
        | _ => simp [scalarText] at herr

/-- **A message is packed**, whatever has been packed before it. -/
theorem doPack_returns [Fintype α] (hG : IsMessage G known) {v : Value α} {st : PackState α}
    (hknown : ∀ a, known a → st.knownId (.ref a) ≠ none) (hobjs : RecordsIn G known st)
    (hv : v.Sendable) : ∃ fuel b st', doPack G fuel v st = .ok b st' := by
  refine ⟨2 * st.fresh.card + 2, ?_⟩
  rcases hp : doPack G (2 * st.fresh.card + 2) v st with ⟨b, st'⟩ | ⟨e, st'⟩ | _
  · exact ⟨b, st', rfl⟩
  · exact absurd hp (doPack_ne_error hG hknown hobjs hv e)
  · exact absurd hp (doPack_ne_timeout (hG.settles hknown) le_rfl)

end Returns

end Box

end Felt
