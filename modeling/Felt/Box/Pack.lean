import Mathlib.Data.Fintype.Card
import Felt.Box.Toc

/-!
# Packing a value

`box.pack` walks the graph below a value and writes it down depth first. Two
tables decide what it writes for a value it has met before. `refs` maps what
was packed earlier in the same call to its index, and holds its own counter
under the string `"n"`; `objs` maps the objects the receiver already has to
their ids. Both are looked up with the value itself, so `refs` answers for a
string as well as for a table: `Refs.lookup` is the whole of that lookup.

The walk ends because a table is entered at most once, and is given fuel in
order to be written before that is proved (`doPack_ne_timeout`). What one step
of it can do is said once, by `PackStep`.

Two facts about the walk are used wherever it is. It only adds to both tables
(`extends_of_doPack`), so that what has been said of a value that is packed
earlier stays true; and it is monotone in its fuel (`doPack_approx`), so that two
calls that both return have the same answer. Neither depends on what the values
are. That a walk raises no error does, and is a matter of messages
(`Felt.Box.Message`).
-/

namespace Felt

namespace Box

variable {α : Type}

/-- **`refs`**: the index of each table and object packed so far, and the
next index, which lives in the same table under the key `"n"`. -/
structure Refs (α : Type) where
  /-- `refs.n`. -/
  n : ℕ
  /-- The index of a table or an object. -/
  index : α → Option ℕ

/-- The string under which `refs` holds its counter. -/
def counterName : Bytes := bytes "n"

/-- `{n=1}`. -/
def Refs.initial : Refs α := ⟨1, fun _ => none⟩

/-- **`refs[obj]`**, for any value whatever. -/
def Refs.lookup (refs : Refs α) : Value α → Option ℕ
  | .string s => if s = counterName then some refs.n else none
  | .ref a => refs.index a
  | _ => none

/-- The state of a call of `box.pack`: `refs`, and `objs` when it was given. -/
structure PackState (α : Type) where
  /-- What this call has packed. -/
  refs : Refs α
  /-- The ids of the objects the receiver has. -/
  objs : Option (α → Option ℕ)

/-- `objs and objs[obj]`. -/
def PackState.knownId (st : PackState α) : Value α → Option ℕ
  | .ref a => st.objs.bind (fun objs => objs a)
  | _ => none

/-- What `pack[type(obj)]` writes for a scalar. -/
def scalarText : Value α → Option Bytes
  | .nil => some (bytes "n")
  | .boolean b => some (if b then bytes "t" else bytes "f")
  | .number n => some (bytes "N" ++ n.tostring)
  | .string s => some (bytes "S" ++ s)
  | _ => none

section Walk

variable [DecidableEq α]

/-- `refs[obj] = refs.n; refs.n = refs.n + 1`. -/
def PackState.mark (st : PackState α) (a : α) : PackState α :=
  { st with refs := ⟨st.refs.n + 1, Function.update st.refs.index a (some st.refs.n)⟩ }

/-- `objs[self] = self.id`, as a `__pack` that records its object does. -/
def PackState.record (st : PackState α) (a : α) (id : ℕ) : Option (PackState α) :=
  st.objs.map (fun objs => { st with objs := some (Function.update objs a (some id)) })

/-- `"T"`, or `"C"`, and the elements behind their table of contents. -/
def withToc (tag : Bytes) (data : List Bytes) : Bytes :=
  tag ++ maketoc data ++ data.flatten

/-- `pack["table"]`: index the table, then pack its keys and values. -/
def packTable (pk : Value α → Run (PackState α) BoxError Bytes) (a : α) (t : Table α) :
    Run (PackState α) BoxError Bytes := do
  Run.modify (·.mark a)
  let data ← Run.mapList pk t.elements
  pure (withToc (bytes "T") data)

/-- `pack["metamethod"]`, by what the metamethod answers. -/
def packMetamethod (pk : Value α → Run (PackState α) BoxError Bytes) (a : α) :
    PackAnswer α → Run (PackState α) BoxError Bytes
  | .raw str => do
    Run.modify (·.mark a)
    pure str
  | .pack none obj => pk obj
  | .pack (some id) obj => do
    let st ← Run.get
    let st' ← Run.assertSome (st.record a id) (.refused "index nil")
    Run.modify (fun _ => st')
    pk obj
  | .call type arg => do
    Run.modify (·.mark a)
    let data ← Run.mapList pk [type, arg]
    pure (withToc (bytes "C") data)
  | .illegal how => Run.throw (.illegalAnswer how)

/-- `do_pack`, and the choice `getpackmethod` makes for it: what was packed
before, what the receiver has, what has a `__pack`, and then by type. -/
def doPack (G : Graph α) : ℕ → Value α → Run (PackState α) BoxError Bytes
  | 0, _ => Run.timeout
  | fuel + 1, v => do
    let st ← Run.get
    match st.refs.lookup v, st.knownId v, v with
    | some k, _, _ => pure (bytes "R" ++ decimal k)
    | none, some id, _ => pure (bytes "O" ++ decimal id)
    | none, none, .ref a =>
      match G a with
      | .table t => packTable (doPack G fuel) a t
      | .object answer => packMetamethod (doPack G fuel) a answer
    | none, none, .foreign type => Run.throw (.cannotPack type)
    | none, none, v => Run.assertSome (scalarText v) (.cannotPack [])

/-- **`box.pack`**. -/
def pack (G : Graph α) (objs : Option (α → Option ℕ)) (fuel : ℕ) (v : Value α) :
    Outcome (PackState α) BoxError Bytes :=
  doPack G fuel v ⟨.initial, objs⟩

/-- **What one step of the walk can do** when it returns: which of the
methods was chosen, what it wrote and what it left. `pk` is the walk below. -/
inductive PackStep (G : Graph α) (pk : Value α → Run (PackState α) BoxError Bytes) :
    Value α → PackState α → Bytes → PackState α → Prop where
  /-- Packed before: a back-reference. -/
  | ref {v : Value α} {st : PackState α} {k : ℕ} (hk : st.refs.lookup v = some k) :
      PackStep G pk v st (bytes "R" ++ decimal k) st
  /-- Known to the receiver: its id. -/
  | obj {v : Value α} {st : PackState α} {id : ℕ} (hk : st.refs.lookup v = none)
      (hid : st.knownId v = some id) : PackStep G pk v st (bytes "O" ++ decimal id) st
  /-- A scalar. -/
  | scalar {v : Value α} {st : PackState α} {b : Bytes} (hk : st.refs.lookup v = none)
      (hb : scalarText v = some b) : PackStep G pk v st b st
  /-- A table. -/
  | table {a : α} {t : Table α} {st st' : PackState α} {data : List Bytes}
      (hk : st.refs.index a = none) (hid : st.knownId (.ref a) = none)
      (hG : G a = .table t) (hdata : Run.mapList pk t.elements (st.mark a) = .ok data st') :
      PackStep G pk (.ref a) st (withToc (bytes "T") data) st'
  /-- An object that answered `"raw"`. -/
  | raw {a : α} {str : Bytes} {st : PackState α} (hk : st.refs.index a = none)
      (hid : st.knownId (.ref a) = none) (hG : G a = .object (.raw str)) :
      PackStep G pk (.ref a) st str (st.mark a)
  /-- An object that answered `"pack"`. -/
  | pack {a : α} {w : Value α} {st st' : PackState α} {b : Bytes}
      (hk : st.refs.index a = none) (hid : st.knownId (.ref a) = none)
      (hG : G a = .object (.pack none w)) (hw : pk w st = .ok b st') :
      PackStep G pk (.ref a) st b st'
  /-- An object that recorded its id and answered `"pack"`. -/
  | record {a : α} {id : ℕ} {w : Value α} {st st₁ st' : PackState α} {b : Bytes}
      (hk : st.refs.index a = none) (hid : st.knownId (.ref a) = none)
      (hG : G a = .object (.pack (some id) w)) (hst : st.record a id = some st₁)
      (hw : pk w st₁ = .ok b st') : PackStep G pk (.ref a) st b st'
  /-- An object that answered `"call"`. -/
  | call {a : α} {type arg : Value α} {st st' : PackState α} {data : List Bytes}
      (hk : st.refs.index a = none) (hid : st.knownId (.ref a) = none)
      (hG : G a = .object (.call type arg))
      (hdata : Run.mapList pk [type, arg] (st.mark a) = .ok data st') :
      PackStep G pk (.ref a) st (withToc (bytes "C") data) st'

/-- **A step that returns is one of `PackStep`.** -/
theorem packStep_of_doPack {G : Graph α} {fuel : ℕ} {v : Value α} {st st' : PackState α}
    {b : Bytes} (h : doPack G (fuel + 1) v st = .ok b st') :
    PackStep G (doPack G fuel) v st b st' := by
  rw [doPack, Run.get_bind] at h
  -- the tables are asked first, whatever kind of value it is
  cases hk : st.refs.lookup v with
  | some k =>
    simp only [hk] at h
    obtain ⟨rfl, rfl⟩ := Outcome.ok.inj h
    exact .ref hk
  | none =>
    cases hid : st.knownId v with
    | some id =>
      simp only [hk, hid] at h
      obtain ⟨rfl, rfl⟩ := Outcome.ok.inj h
      exact .obj hk hid
    | none =>
      simp only [hk, hid] at h
      cases v with
      | nil => obtain ⟨rfl, rfl⟩ := Outcome.ok.inj h; exact .scalar hk rfl
      | boolean b => obtain ⟨rfl, rfl⟩ := Outcome.ok.inj h; exact .scalar hk rfl
      | number n => obtain ⟨rfl, rfl⟩ := Outcome.ok.inj h; exact .scalar hk rfl
      | string s => obtain ⟨rfl, rfl⟩ := Outcome.ok.inj h; exact .scalar hk rfl
      | foreign type => exact absurd h (by simp)
      | ref a =>
        cases hG : G a with
        | table t =>
          simp only [hG, packTable, Run.modify_bind] at h
          obtain ⟨data, st₁, hdata, hp⟩ := Run.bind_eq_ok.mp h
          obtain ⟨rfl, rfl⟩ := Outcome.ok.inj hp
          exact .table hk hid hG hdata
        | object answer =>
          cases answer with
          | raw str =>
            simp only [hG, packMetamethod, Run.modify_bind] at h
            obtain ⟨rfl, rfl⟩ := Outcome.ok.inj h
            exact .raw hk hid hG
          | pack record w =>
            cases record with
            | none =>
              simp only [hG, packMetamethod] at h
              exact .pack hk hid hG h
            | some id =>
              simp only [hG, packMetamethod, Run.get_bind] at h
              obtain ⟨st₁, st₂, hst, hw⟩ := Run.bind_eq_ok.mp h
              cases hrec : st.record a id with
              | none =>
                rw [hrec] at hst
                exact absurd hst (by simp)
              | some st₃ =>
                rw [hrec] at hst
                obtain ⟨rfl, rfl⟩ := Outcome.ok.inj hst
                exact .record hk hid hG hrec hw
          | call type arg =>
            simp only [hG, packMetamethod, Run.modify_bind] at h
            obtain ⟨data, st₁, hdata, hp⟩ := Run.bind_eq_ok.mp h
            obtain ⟨rfl, rfl⟩ := Outcome.ok.inj hp
            exact .call hk hid hG hdata
          | illegal how =>
            simp only [hG, packMetamethod] at h
            exact absurd h (by simp)

/-! ## Only more becomes known -/

/-- **`st'` extends `st`**: what was packed or known stays so, under the same
index or id. -/
structure PackState.Extends (st st' : PackState α) : Prop where
  /-- The counter does not go back. -/
  n_le : st.refs.n ≤ st'.refs.n
  /-- An index is not changed. -/
  index : ∀ a k, st.refs.index a = some k → st'.refs.index a = some k
  /-- An id is not changed. -/
  known : ∀ a id, st.knownId (.ref a) = some id → st'.knownId (.ref a) = some id
  /-- Whether there is a table of known objects does not change. -/
  objs : st'.objs.isSome = st.objs.isSome

omit [DecidableEq α] in
theorem PackState.Extends.refl (st : PackState α) : st.Extends st :=
  ⟨le_refl _, fun _ _ h => h, fun _ _ h => h, rfl⟩

omit [DecidableEq α] in
theorem PackState.Extends.trans {st₁ st₂ st₃ : PackState α} (h₁ : st₁.Extends st₂)
    (h₂ : st₂.Extends st₃) : st₁.Extends st₃ :=
  ⟨h₁.n_le.trans h₂.n_le, fun a k h => h₂.index a k (h₁.index a k h),
    fun a id h => h₂.known a id (h₁.known a id h), h₂.objs.trans h₁.objs⟩

@[simp] theorem PackState.mark_n (st : PackState α) (a : α) :
    (st.mark a).refs.n = st.refs.n + 1 := rfl

@[simp] theorem PackState.mark_index_self (st : PackState α) (a : α) :
    (st.mark a).refs.index a = some st.refs.n := Function.update_self ..

theorem PackState.mark_index_of_ne (st : PackState α) {a b : α} (h : b ≠ a) :
    (st.mark a).refs.index b = st.refs.index b := Function.update_of_ne h ..

@[simp] theorem PackState.mark_knownId (st : PackState α) (a : α) (v : Value α) :
    (st.mark a).knownId v = st.knownId v := by
  cases v <;> rfl

theorem PackState.extends_mark {st : PackState α} {a : α} (h : st.refs.index a = none) :
    st.Extends (st.mark a) := by
  refine ⟨Nat.le_succ _, fun b k hb => ?_, fun b id hb => by rwa [mark_knownId], rfl⟩
  have hne : b ≠ a := fun hba => by
    rw [hba, h] at hb
    exact absurd hb (by simp)
  rw [mark_index_of_ne st hne, hb]

theorem PackState.record_eq {st st' : PackState α} {a : α} {id : ℕ}
    (h : st.record a id = some st') :
    st'.refs = st.refs ∧ st'.knownId (.ref a) = some id
      ∧ ∀ b ≠ a, st'.knownId (.ref b) = st.knownId (.ref b) := by
  unfold record at h
  cases ho : st.objs with
  | none =>
    rw [ho] at h
    exact absurd h (by simp)
  | some objs =>
    rw [ho] at h
    obtain rfl := Option.some.inj h
    refine ⟨rfl, ?_, fun b hb => ?_⟩
    · simp [knownId]
    · simp [knownId, ho, Function.update_of_ne hb]

theorem PackState.extends_record {st st' : PackState α} {a : α} {id : ℕ}
    (h : st.record a id = some st') (hid : st.knownId (.ref a) = none) :
    st.Extends st' := by
  obtain ⟨hrefs, -, hother⟩ := record_eq h
  refine ⟨by rw [hrefs], fun b k hb => by rw [hrefs, hb], fun b k hb => ?_, ?_⟩
  · have hne : b ≠ a := fun hba => by
      rw [hba, hid] at hb
      exact absurd hb (by simp)
    rw [hother b hne, hb]
  · obtain ⟨objs, ho, rfl⟩ := Option.map_eq_some_iff.mp h
    rw [ho]
    rfl

omit [DecidableEq α] in
/-- A walk that only adds does so over a list. -/
theorem extends_of_mapList {pk : Value α → Run (PackState α) BoxError Bytes}
    (h : ∀ v st b st', pk v st = .ok b st' → st.Extends st') {l : List (Value α)}
    {st st' : PackState α} {data : List Bytes}
    (hl : Run.mapList pk l st = .ok data st') : st.Extends st' := by
  induction l generalizing st data with
  | nil =>
    obtain ⟨-, rfl⟩ := Outcome.ok.inj hl
    exact .refl _
  | cons v l ih =>
    obtain ⟨b, st₁, data', hb, hl', -⟩ := Run.mapList_cons_eq_ok.mp hl
    exact (h v st b st₁ hb).trans (ih hl')

omit [DecidableEq α] in
/-- What the receiver has stays known. -/
theorem PackState.Extends.knownId_ne_none {st st' : PackState α} (h : st.Extends st') {a : α}
    (ha : st.knownId (.ref a) ≠ none) : st'.knownId (.ref a) ≠ none := by
  obtain ⟨id, hid⟩ := Option.ne_none_iff_exists'.mp ha
  rw [h.known a id hid]
  simp

/-- **Packing only adds** to what is packed and known. -/
theorem extends_of_doPack {G : Graph α} {fuel : ℕ} {v : Value α} {st st' : PackState α}
    {b : Bytes} (h : doPack G fuel v st = .ok b st') : st.Extends st' := by
  induction fuel generalizing v st b st' with
  | zero => exact absurd h (by simp [doPack])
  | succ fuel ih =>
    have hall : ∀ v st b st', doPack G fuel v st = .ok b st' → st.Extends st' :=
      fun v st b st' h => ih h
    cases packStep_of_doPack h with
    | ref hk => exact .refl _
    | obj hk hid => exact .refl _
    | scalar hk hb => exact .refl _
    | table hk hid hG hdata =>
      exact (PackState.extends_mark hk).trans (extends_of_mapList hall hdata)
    | raw hk hid hG => exact PackState.extends_mark hk
    | pack hk hid hG hw => exact ih hw
    | record hk hid hG hst hw => exact (PackState.extends_record hst hid).trans (ih hw)
    | call hk hid hG hdata =>
      exact (PackState.extends_mark hk).trans (extends_of_mapList hall hdata)

theorem extends_of_mapList_doPack {G : Graph α} {fuel : ℕ} {l : List (Value α)}
    {st st' : PackState α} {data : List Bytes}
    (h : Run.mapList (doPack G fuel) l st = .ok data st') : st.Extends st' :=
  extends_of_mapList (fun _ _ _ _ h => extends_of_doPack h) h

/-! ## More fuel -/

theorem doPack_approx (G : Graph α) (fuel : ℕ) (v : Value α) :
    Run.Approx (doPack G fuel v) (doPack G (fuel + 1) v) := by
  induction fuel generalizing v with
  | zero => exact Run.Approx.timeout _
  -- each method is monotone in the call it makes
  | succ fuel ih =>
    rw [doPack, doPack]
    refine (Run.Approx.refl _).bind (fun st => ?_)
    cases st.refs.lookup v with
    | some k => exact .refl _
    | none =>
      cases st.knownId v with
      | some id => exact .refl _
      | none =>
        cases v with
        | ref a =>
          simp only
          cases G a with
          | table t =>
            exact (Run.Approx.refl _).bind (fun _ =>
              (Run.Approx.mapList ih _).bind (fun _ => .refl _))
          | object answer =>
            cases answer with
            | raw str => exact .refl _
            | pack record w =>
              cases record with
              | none => exact ih w
              | some id =>
                exact (Run.Approx.refl _).bind (fun _ => (Run.Approx.refl _).bind
                  (fun _ => (Run.Approx.refl _).bind (fun _ => ih w)))
            | call type arg =>
              exact (Run.Approx.refl _).bind (fun _ =>
                (Run.Approx.mapList ih _).bind (fun _ => .refl _))
            | illegal how => exact .refl _
        | _ => exact .refl _

theorem doPack_of_le {G : Graph α} {m n : ℕ} (hmn : m ≤ n) {v : Value α}
    {st st' : PackState α} {b : Bytes} (h : doPack G m v st = .ok b st') :
    doPack G n v st = .ok b st' :=
  (Run.Approx.of_le (fun k => doPack_approx G k v) hmn).ok h

theorem mapList_doPack_of_le {G : Graph α} {m n : ℕ} (hmn : m ≤ n) {l : List (Value α)}
    {st st' : PackState α} {data : List Bytes}
    (h : Run.mapList (doPack G m) l st = .ok data st') :
    Run.mapList (doPack G n) l st = .ok data st' :=
  (Run.Approx.mapList
    (fun v => Run.Approx.of_le (fun k => doPack_approx G k v) hmn) l).ok h

/-- **A call of `do_pack` has one answer**, whatever its fuel. -/
theorem doPack_unique {G : Graph α} {m n : ℕ} {v : Value α} {st st₁ st₂ : PackState α}
    {b₁ b₂ : Bytes} (h₁ : doPack G m v st = .ok b₁ st₁) (h₂ : doPack G n v st = .ok b₂ st₂) :
    b₁ = b₂ ∧ st₁ = st₂ :=
  Outcome.ok.inj ((doPack_of_le (Nat.le_max_left m n) h₁).symm.trans
    (doPack_of_le (Nat.le_max_right m n) h₂))

theorem mapList_doPack_unique {G : Graph α} {m n : ℕ} {l : List (Value α)}
    {st st₁ st₂ : PackState α} {data₁ data₂ : List Bytes}
    (h₁ : Run.mapList (doPack G m) l st = .ok data₁ st₁)
    (h₂ : Run.mapList (doPack G n) l st = .ok data₂ st₂) : data₁ = data₂ ∧ st₁ = st₂ :=
  Outcome.ok.inj ((mapList_doPack_of_le (Nat.le_max_left m n) h₁).symm.trans
    (mapList_doPack_of_le (Nat.le_max_right m n) h₂))

end Walk

/-! ## The walk ends

A table or a call object is indexed before anything below it is packed, so
the points that are not indexed yet run out. An object that packs itself
instead has recorded its id first, and is a known object the next time. -/

/-- **No `"pack"` answer sends the walk elsewhere**: an object that is packed
by packing something else has recorded its own id and packs itself. -/
def Settles (G : Graph α) (st : PackState α) : Prop :=
  ∀ a record w, st.knownId (.ref a) = none → G a = .object (.pack record w) →
    record.isSome = true ∧ w = .ref a

theorem Settles.mono {G : Graph α} {st st' : PackState α} (h : Settles G st)
    (hext : st.Extends st') : Settles G st' := fun a record w hid => by
  refine h a record w (Option.eq_none_iff_forall_ne_some.mpr (fun id hid' => ?_))
  rw [hext.known a id hid'] at hid
  exact absurd hid (by simp)

section Ends

variable [Fintype α] [DecidableEq α]

/-- The points that are not indexed yet. -/
def PackState.fresh (st : PackState α) : Finset α :=
  Finset.univ.filter (fun a => st.refs.index a = none)

omit [DecidableEq α] in
theorem PackState.card_fresh_mono {st st' : PackState α} (h : st.Extends st') :
    st'.fresh.card ≤ st.fresh.card := by
  refine Finset.card_le_card (fun a ha => ?_)
  simp only [fresh, Finset.mem_filter, Finset.mem_univ, true_and] at ha ⊢
  by_contra hne
  obtain ⟨k, hk⟩ := Option.ne_none_iff_exists'.mp hne
  rw [h.index a k hk] at ha
  exact absurd ha (by simp)

theorem PackState.card_fresh_mark {st : PackState α} {a : α}
    (h : st.refs.index a = none) : (st.mark a).fresh.card < st.fresh.card := by
  refine Finset.card_lt_card (Finset.ssubset_iff_of_subset (fun b hb => ?_) |>.mpr
    ⟨a, by simpa [fresh] using h, by simp [fresh]⟩)
  simp only [fresh, Finset.mem_filter, Finset.mem_univ, true_and] at hb ⊢
  by_cases hba : b = a
  · rw [hba, h]
  · rwa [mark_index_of_ne st hba] at hb

omit [Fintype α] [DecidableEq α] in
theorem mapList_ne_timeout {pk : Value α → Run (PackState α) BoxError Bytes}
    (st₀ : PackState α) (h : ∀ v st, st₀.Extends st → pk v st ≠ .timeout)
    (hext : ∀ v st b st', pk v st = .ok b st' → st.Extends st') (l : List (Value α))
    {st : PackState α} (hst : st₀.Extends st) : Run.mapList pk l st ≠ .timeout := by
  induction l generalizing st with
  | nil => nofun
  | cons v l ih =>
    rw [Run.mapList_cons]
    refine Run.bind_ne_timeout (h v st hst) (fun b st₁ hv => ?_)
    exact Run.bind_ne_timeout (ih (hst.trans (hext v st b st₁ hv))) (fun _ _ _ => by simp)

/-- **Packing ends**, on every finite graph that settles: twice the number of
points not indexed yet is fuel enough. -/
theorem doPack_ne_timeout {G : Graph α} {fuel : ℕ} {v : Value α}
    {st : PackState α} (hG : Settles G st) (hfuel : 2 * st.fresh.card + 2 ≤ fuel) :
    doPack G fuel v st ≠ .timeout := by
  induction fuel generalizing v st with
  | zero => omega
  | succ fuel ih =>
    have hlist : ∀ {a : α} {l : List (Value α)}, st.refs.index a = none →
        Run.mapList (doPack G fuel) l (st.mark a) ≠ .timeout := fun {a l} hk => by
      have hlt := PackState.card_fresh_mark hk
      refine mapList_ne_timeout (st.mark a) (fun v st' hst' => ?_)
        (fun v st b st' h => extends_of_doPack h) l (.refl _)
      have hcard := PackState.card_fresh_mono hst'
      exact ih (hG.mono ((PackState.extends_mark hk).trans hst')) (by omega)
    rw [doPack, Run.get_bind]
    intro ht
    cases hk : st.refs.lookup v with
    | some k => simp [hk] at ht
    | none =>
      cases hid : st.knownId v with
      | some id => simp [hk, hid] at ht
      | none =>
        simp only [hk, hid] at ht
        cases v with
        | ref a =>
          cases ha : G a with
          | table t =>
            simp only [ha, packTable, Run.modify_bind] at ht
            rcases Run.bind_eq_timeout.mp ht with h | ⟨data, st₁, -, h⟩
            · exact hlist hk h
            · exact absurd h (by simp)
          | object answer =>
            cases answer with
            | raw str => simp [ha, packMetamethod, Run.modify_bind] at ht
            | pack record w =>
              obtain ⟨hrec, rfl⟩ := hG a record w hid ha
              obtain ⟨id, rfl⟩ := Option.isSome_iff_exists.mp hrec
              simp only [ha, packMetamethod, Run.get_bind] at ht
              cases hst : st.record a id with
              | none => simp [hst, Run.bind_apply] at ht
              | some st₁ =>
                rw [hst, Run.bind_of_ok (Run.assertSome_some _ _ _), Run.modify_bind] at ht
                -- the object is known now, whatever else there is
                obtain ⟨hrefs, hself, -⟩ := PackState.record_eq hst
                obtain ⟨fuel, rfl⟩ : ∃ f, fuel = f + 1 := ⟨fuel - 1, by omega⟩
                have hk₁ : st₁.refs.lookup (.ref a) = none := by rw [hrefs, hk]
                simp [doPack, Run.get_bind, hk₁, hself] at ht
            | call type arg =>
              simp only [ha, packMetamethod, Run.modify_bind] at ht
              rcases Run.bind_eq_timeout.mp ht with h | ⟨data, st₁, -, h⟩
              · exact hlist hk h
              · exact absurd h (by simp)
            | illegal how => simp [ha, packMetamethod] at ht
        | foreign type => simp at ht
        | _ => simp [scalarText] at ht

end Ends

end Box

end Felt
