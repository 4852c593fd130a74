import Felt.Box.Peers

/-!
# Strings are opaque, but for one

The serializer should not look into a string: it goes out as its tag and its
bytes, whatever they are. But `do_pack` asks `refs` for every value before it
asks for its type, and `refs` is not only the table of what was packed, it is
where the counter lives, under the key `"n"`. So the string `"n"` is taken for
something that was packed before, and is written as a reference to the index
that comes next – which no decoder has.

`strings_opaque_iff` is exact: where that string is not packed every string
is opaque and every back-reference is one, and where it is, neither holds and
the message cannot be decoded.

There are two things to relate. `Visits` is about calls of `do_pack`, all those a
run makes, also one that ends in an error; `Occurs` is about what is below a
value, and knows of no order. For a run that returns they come to the same: what
occurs is visited, the first time there is a way to it that no index or id cuts
short. That needs an induction along a chain of parts, in which each point on the
way was visited before it was known (`exists_visit_of_settled`).
-/

namespace Felt

namespace Box

variable {α : Type} [DecidableEq α]

/-- The state in which the parts of a point are packed. -/
def PackState.enter (st : PackState α) (a : α) : Cell α → Option (PackState α)
  | .table _ => some (st.mark a)
  | .object (.raw _) => some (st.mark a)
  | .object (.pack none _) => some st
  | .object (.pack (some id) _) => st.record a id
  | .object (.call _ _) => some (st.mark a)
  | .object (.illegal _) => none

/-- **In the course of packing `v` from `st`, `u` is packed from `st'`**: every
call of `do_pack` that the run gets to. -/
inductive Visits (G : Graph α) : Value α → PackState α → Value α → PackState α → Prop where
  /-- The value itself. -/
  | self (v : Value α) (st : PackState α) : Visits G v st v st
  /-- A part of a point that is met for the first time, behind the parts that
  were packed before it. -/
  | part {a : α} {st st₀ st₁ st' : PackState α} {fuel : ℕ} {pre post : List (Value α)}
      {x u : Value α} {data : List Bytes} (hk : st.refs.index a = none)
      (hid : st.knownId (.ref a) = none) (henter : st.enter a (G a) = some st₀)
      (hx : (G a).parts = pre ++ x :: post)
      (hpre : Run.mapList (doPack G fuel) pre st₀ = .ok data st₁)
      (hu : Visits G x st₁ u st') : Visits G (.ref a) st u st'

/-- **Strings are opaque in the course of packing `v`**: one that is packed is
written as its tag and its bytes, and a back-reference is written only for a
table or an object that has got its index. -/
structure Opaque (G : Graph α) (objs : Option (α → Option ℕ)) (v : Value α) : Prop where
  /-- A string is written as its tag and its bytes. -/
  strings : ∀ s st, Visits G v ⟨.initial, objs⟩ (.string s) st →
    ∀ fuel, doPack G (fuel + 1) (.string s) st = .ok (bytes "S" ++ s) st
  /-- A back-reference is one. -/
  refs : ∀ u st k, Visits G v ⟨.initial, objs⟩ u st → st.refs.lookup u = some k →
    ∃ a, u = .ref a ∧ st.refs.index a = some k

theorem doPack_string (G : Graph α) {s : Bytes} (hs : s ≠ counterName) (st : PackState α)
    (fuel : ℕ) : doPack G (fuel + 1) (.string s) st = .ok (bytes "S" ++ s) st := by
  rw [doPack, Run.get_bind]
  simp [Refs.lookup, hs, PackState.knownId, scalarText]

/-- **Opaque exactly where the counter's name is not packed.** -/
theorem opaque_iff_not_visits (G : Graph α) (objs : Option (α → Option ℕ)) (v : Value α) :
    Opaque G objs v ↔ ∀ st, ¬ Visits G v ⟨.initial, objs⟩ (.string counterName) st := by
  constructor
  · intro h st hv
    obtain ⟨a, ha, -⟩ := h.refs _ st st.refs.n hv (by simp [Refs.lookup])
    exact absurd ha (by simp)
  · intro h
    have hne : ∀ s st, Visits G v ⟨.initial, objs⟩ (.string s) st → s ≠ counterName :=
      fun s st hv hs => h st (hs ▸ hv)
    refine ⟨fun s st hv fuel => doPack_string G (hne s st hv) st fuel, fun u st k hv hk => ?_⟩
    cases u with
    | string s => exact absurd hk (by simp [Refs.lookup, hne s st hv])
    | ref a => exact ⟨a, rfl, hk⟩
    | _ => exact absurd hk (by simp [Refs.lookup])

/-! ## What occurs in a value that was packed was packed -/

theorem Visits.trans {G : Graph α} {u v w : Value α} {st₁ st₂ st₃ : PackState α}
    (h₁ : Visits G u st₁ v st₂) (h₂ : Visits G v st₂ w st₃) : Visits G u st₁ w st₃ := by
  induction h₁ with
  | self v st => exact h₂
  | part hk hid henter hx hpre _ ih => exact .part hk hid henter hx hpre (ih h₂)

/-- A point that is met for the first time and packed has had its parts
packed. -/
theorem exists_enter_of_doPack {G : Graph α} {fuel : ℕ} {a : α} {st st' : PackState α}
    {b : Bytes} (h : doPack G (fuel + 1) (.ref a) st = .ok b st')
    (hk : st.refs.index a = none) (hid : st.knownId (.ref a) = none) :
    ∃ st₀ data, st.enter a (G a) = some st₀
      ∧ Run.mapList (doPack G fuel) (G a).parts st₀ = .ok data st' := by
  have hone : ∀ {w : Value α} {st₀ : PackState α}, doPack G fuel w st₀ = .ok b st' →
      Run.mapList (doPack G fuel) [w] st₀ = .ok [b] st' := fun hw =>
    Run.mapList_cons_eq_ok.mpr ⟨b, st', [], hw, rfl, rfl⟩
  cases packStep_of_doPack h with
  | ref hk' => exact absurd (hk.symm.trans hk') (by simp)
  | obj _ hid' => exact absurd (hid.symm.trans hid') (by simp)
  | scalar _ hb => exact absurd hb (by simp [scalarText])
  | table _ _ hG hdata => exact ⟨st.mark a, _, by rw [hG]; rfl, by rw [hG]; exact hdata⟩
  | raw _ _ hG => exact ⟨st.mark a, [], by rw [hG]; rfl, by rw [hG]; rfl⟩
  | pack _ _ hG hw => exact ⟨st, [b], by rw [hG]; rfl, by rw [hG]; exact hone hw⟩
  | record _ _ hG hst hw => exact ⟨_, [b], by rw [hG]; exact hst, by rw [hG]; exact hone hw⟩
  | call _ _ hG hdata => exact ⟨st.mark a, _, by rw [hG]; rfl, by rw [hG]; exact hdata⟩

/-- `a` has been dealt with: it has an index or an id. -/
def PackState.Settled (st : PackState α) (a : α) : Prop :=
  st.refs.index a ≠ none ∨ st.knownId (.ref a) ≠ none

omit [DecidableEq α] in
theorem PackState.Extends.settled {st st' : PackState α} (h : st.Extends st') {a : α}
    (ha : st.Settled a) : st'.Settled a := by
  rcases ha with ha | ha
  · obtain ⟨k, hk⟩ := Option.ne_none_iff_exists'.mp ha
    exact Or.inl (by rw [h.index a k hk]; simp)
  · obtain ⟨id, hid⟩ := Option.ne_none_iff_exists'.mp ha
    exact Or.inr (by rw [h.known a id hid]; simp)

omit [DecidableEq α] in
/-- A list that was packed was packed up to each of its elements, and that
element next. -/
theorem exists_of_mapList {pk : Value α → Run (PackState α) BoxError Bytes}
    {l pre post : List (Value α)} {x : Value α} {st st' : PackState α} {data : List Bytes}
    (h : Run.mapList pk l st = .ok data st') (hl : l = pre ++ x :: post) :
    ∃ data₁ st₁ b st₂ data₂, Run.mapList pk pre st = .ok data₁ st₁ ∧ pk x st₁ = .ok b st₂
      ∧ Run.mapList pk post st₂ = .ok data₂ st' := by
  subst hl
  obtain ⟨data₁, data', st₁, h₁, h', -⟩ := Run.mapList_append_eq_ok.mp h
  obtain ⟨b, st₂, data₂, hb, h₂, -⟩ := Run.mapList_cons_eq_ok.mp h'
  exact ⟨data₁, st₁, b, st₂, data₂, h₁, hb, h₂⟩

/-- **Every visit of a run that returns returns**, in a state that the run
extends. -/
theorem Visits.returns {G : Graph α} {v u : Value α} {st st₁ : PackState α}
    (h : Visits G v st u st₁) {fuel : ℕ} {b : Bytes} {st' : PackState α}
    (hp : doPack G fuel v st = .ok b st') :
    ∃ fuel' b' st₂, doPack G fuel' u st₁ = .ok b' st₂ ∧ st₂.Extends st' := by
  induction h generalizing fuel b st' with
  | self v st => exact ⟨fuel, b, st', hp, .refl _⟩
  | @part a st st₀ st₁ st₂ k pre post x u data hk hid henter hx hpre hu ih =>
    cases fuel with
    | zero => exact absurd hp (by simp [doPack])
    | succ fuel =>
      obtain ⟨st₀', data', henter', hall⟩ := exists_enter_of_doPack hp hk hid
      obtain rfl : st₀' = st₀ := Option.some.inj (henter'.symm.trans henter)
      obtain ⟨data₁, st₃, b₃, st₄, data₂, hpre', hb₃, hpost⟩ := exists_of_mapList hall hx
      -- whatever its fuel, the walk over the parts before has one answer
      have heq : st₃ = st₁ := (mapList_doPack_unique hpre' hpre).2
      obtain ⟨fuel', b', st₅, hdone, hext⟩ := ih (heq ▸ hb₃)
      exact ⟨fuel', b', st₅, hdone, hext.trans (extends_of_mapList_doPack hpost)⟩

/-- A point that is met for the first time has its parts packed. -/
theorem visits_parts {G : Graph α} {a : α} {st st' : PackState α} {fuel : ℕ} {b : Bytes}
    (hp : doPack G fuel (.ref a) st = .ok b st') (ha : ¬ st.Settled a) {x : Value α}
    (hx : x ∈ (G a).parts) : ∃ st₁, Visits G (.ref a) st x st₁ := by
  obtain ⟨hk, hid⟩ := not_or.mp ha
  rw [not_not] at hk hid
  cases fuel with
  | zero => exact absurd hp (by simp [doPack])
  | succ fuel =>
    obtain ⟨st₀, data, henter, hall⟩ := exists_enter_of_doPack hp hk hid
    obtain ⟨pre, post, hl⟩ := List.append_of_mem hx
    obtain ⟨data₁, st₁, b₁, st₂, data₂, hpre, -, -⟩ := exists_of_mapList hall hl
    exact ⟨st₁, .part hk hid henter hl hpre (.self x st₁)⟩

omit [DecidableEq α] in
/-- What a walk over a list changes is changed at one of its elements. -/
theorem exists_change_of_mapList {pk : Value α → Run (PackState α) BoxError Bytes}
    {P : PackState α → Prop} {l : List (Value α)} {st st' : PackState α} {data : List Bytes}
    (h : Run.mapList pk l st = .ok data st') (hst : ¬ P st) (hst' : P st') :
    ∃ pre x post data₁ st₁ b st₂, l = pre ++ x :: post
      ∧ Run.mapList pk pre st = .ok data₁ st₁ ∧ pk x st₁ = .ok b st₂ ∧ ¬ P st₁ ∧ P st₂ := by
  induction l generalizing st data with
  | nil =>
    obtain ⟨-, rfl⟩ := Outcome.ok.inj h
    exact absurd hst' hst
  | cons v l ih =>
    obtain ⟨b, st₁, data', hb, hl, -⟩ := Run.mapList_cons_eq_ok.mp h
    by_cases hP : P st₁
    · exact ⟨[], v, l, [], st, b, st₁, rfl, rfl, hb, hst, hP⟩
    · obtain ⟨pre, x, post, data₁, st₂, b', st₃, rfl, hpre, hx, h₂, h₃⟩ := ih hl hP
      exact ⟨v :: pre, x, post, b :: data₁, st₂, b', st₃, rfl,
        Run.mapList_cons_eq_ok.mpr ⟨b, st₁, data₁, hb, hpre, rfl⟩, hx, h₂, h₃⟩

/-- Entering a point deals with no other. -/
theorem not_settled_of_enter {st st₀ : PackState α} {a c : α} {cell : Cell α}
    (h : st.enter c cell = some st₀) (hac : a ≠ c) (ha : ¬ st.Settled a) : ¬ st₀.Settled a := by
  have hmark : ¬ (st.mark c).Settled a := by
    rw [PackState.Settled, PackState.mark_index_of_ne st hac, PackState.mark_knownId]
    exact ha
  cases cell with
  | table t => exact Option.some.inj h ▸ hmark
  | object answer =>
    cases answer with
    | raw str => exact Option.some.inj h ▸ hmark
    | pack record w =>
      cases record with
      | none => exact Option.some.inj h ▸ ha
      | some id =>
        obtain ⟨hrefs, -, hother⟩ := PackState.record_eq h
        rw [PackState.Settled, hrefs, hother a hac]
        exact ha
    | call type ctor => exact Option.some.inj h ▸ hmark
    | illegal how => exact absurd h (by simp [PackState.enter])

/-- **What has been dealt with was met before**, in a state in which it had
not been. -/
theorem exists_visit_of_settled {G : Graph α} {fuel : ℕ} {v : Value α} {st st' : PackState α}
    {b : Bytes} (hp : doPack G fuel v st = .ok b st') {a : α} (ha : ¬ st.Settled a)
    (ha' : st'.Settled a) : ∃ st₁, Visits G v st (.ref a) st₁ ∧ ¬ st₁.Settled a := by
  induction fuel generalizing v st st' b with
  | zero => exact absurd hp (by simp [doPack])
  | succ fuel ih =>
    have hfirst : st' = st ∨ ∃ c, v = .ref c ∧ st.refs.index c = none
        ∧ st.knownId (.ref c) = none := by
      cases packStep_of_doPack hp with
      | ref => exact Or.inl rfl
      | obj => exact Or.inl rfl
      | scalar => exact Or.inl rfl
      | table hk hid => exact Or.inr ⟨_, rfl, hk, hid⟩
      | raw hk hid => exact Or.inr ⟨_, rfl, hk, hid⟩
      | pack hk hid => exact Or.inr ⟨_, rfl, hk, hid⟩
      | record hk hid => exact Or.inr ⟨_, rfl, hk, hid⟩
      | call hk hid => exact Or.inr ⟨_, rfl, hk, hid⟩
    rcases hfirst with rfl | ⟨c, rfl, hk, hid⟩
    · exact absurd ha' ha
    by_cases hac : a = c
    · subst hac
      exact ⟨st, .self _ st, ha⟩
    · obtain ⟨st₀, data, henter, hall⟩ := exists_enter_of_doPack hp hk hid
      obtain ⟨pre, x, post, data₁, st₁, b₁, st₂, hl, hpre, hx, h₁, h₂⟩ :=
        exists_change_of_mapList (P := fun s => s.Settled a) hall
          (not_settled_of_enter henter hac ha) ha'
      obtain ⟨st₃, hvisit, hst₃⟩ := ih hx h₁ h₂
      exact ⟨st₃, .part hk hid henter hl hpre hvisit, hst₃⟩

/-- **What occurs in a value that was packed was packed.** -/
theorem exists_visit_of_occurs {G : Graph α} {fuel : ℕ} {v : Value α} {st st' : PackState α}
    {b : Bytes} (hp : doPack G fuel v st = .ok b st')
    (hst : ∀ a, st.refs.index a = none) {u : Value α}
    (hocc : Occurs G (fun a => st.knownId (.ref a) ≠ none) v u) :
    ∃ st₁, Visits G v st u st₁ := by
  suffices h : ∀ w, (∃ st₁, Visits G v st w st₁) →
      Occurs G (fun a => st.knownId (.ref a) ≠ none) w u → ∃ st₁, Visits G v st u st₁ from
    h v ⟨st, .self v st⟩ hocc
  clear hocc
  intro w hw hocc
  induction hocc with
  | self w => exact hw
  | @part a x u ha hx hu ih =>
    refine ih ?_
    have hunsettled : ¬ st.Settled a := fun h => h.elim (fun h => h (hst a)) ha
    -- the visit at which the point was met for the first time
    obtain ⟨st₁, hvisit, hst₁⟩ : ∃ st₁, Visits G v st (.ref a) st₁ ∧ ¬ st₁.Settled a := by
      obtain ⟨st₁, hvisit⟩ := hw
      by_cases hs : st₁.Settled a
      · obtain ⟨fuel', b', st₂, hdone, hext⟩ := hvisit.returns hp
        exact exists_visit_of_settled hp hunsettled
          (hext.settled ((extends_of_doPack hdone).settled hs))
      · exact ⟨st₁, hvisit, hs⟩
    obtain ⟨fuel', b', st₂, hdone, -⟩ := hvisit.returns hp
    obtain ⟨st₃, hpart⟩ := visits_parts hdone hst₁ hx
    exact ⟨st₃, hvisit.trans hpart⟩

theorem extends_of_enter {st st₀ : PackState α} {a : α} {cell : Cell α}
    (h : st.enter a cell = some st₀) (hk : st.refs.index a = none)
    (hid : st.knownId (.ref a) = none) : st.Extends st₀ := by
  have hmark := PackState.extends_mark hk
  cases cell with
  | table t => exact Option.some.inj h ▸ hmark
  | object answer =>
    cases answer with
    | raw str => exact Option.some.inj h ▸ hmark
    | pack record w =>
      cases record with
      | none => exact Option.some.inj h ▸ .refl st
      | some id => exact PackState.extends_record h hid
    | call type ctor => exact Option.some.inj h ▸ hmark
    | illegal how => exact absurd h (by simp [PackState.enter])

/-- What is packed in the course of packing a value occurs in it. -/
theorem Visits.occurs {G : Graph α} {known : α → Prop} {v u : Value α} {st st₁ : PackState α}
    (h : Visits G v st u st₁) (hknown : ∀ a, known a → st.knownId (.ref a) ≠ none) :
    Occurs G known v u := by
  induction h with
  | self v st => exact .self v
  | @part a st st₀ st₁ st₂ fuel pre post x u data hk hid henter hx hpre hu ih =>
    refine .part (fun ha => hknown a ha hid) (hx ▸ by simp) (ih (fun c hc => ?_))
    have hext₀ : st.Extends st₀ := extends_of_enter henter hk hid
    have hext₁ : st₀.Extends st₁ := extends_of_mapList_doPack hpre
    exact (hext₀.trans hext₁).knownId_ne_none (hknown c hc)

/-! ## The exact condition -/

/-- The counter's name is written as a reference to the next index. -/
theorem doPack_counterName (G : Graph α) (st : PackState α) (fuel : ℕ) :
    doPack G (fuel + 1) (.string counterName) st
      = .ok (bytes "R" ++ decimal st.refs.n) st := by
  rw [doPack, Run.get_bind]
  simp [Refs.lookup]

/-- A reference to the first index is none, with nothing before it. -/
theorem unpack_first_ref_ne_ok {ω τ : Type} [DecidableEq ω] (R : Receiver ω τ) (fuel : ℕ)
    (store : Store ω τ) (w : Value (Point ω)) (ust : UnpackState ω τ) :
    unpack .ideal R fuel (bytes "R" ++ decimal 1) store ≠ .ok w ust := by
  cases fuel with
  | zero => nofun
  | succ fuel =>
    show unpackR .ideal (decimal 1) ⟨[], store, []⟩ ≠ _
    rw [unpackR, Run.get_bind, Arith.ideal_index_decimal, Option.bind_some,
      entryAt_natCast _ le_rfl]
    intro h
    cases h

/-- **A message is decoded exactly when the counter's name is not in it.** -/
theorem decodes_iff_not_occurs [Fintype α] {ω τ : Type} [DecidableEq ω] {G : Graph α}
    {objs : α → Option ℕ} {R : Receiver ω τ} {store : Store ω τ} {ids : Set ℕ}
    {held : τ → Set ℕ} (h : Understands G objs R store ids held) {v : Value α}
    (hv : v.Sendable) :
    (∃ fuel b st fuel' w ust, pack G (some objs) fuel v = .ok b st ∧
        unpack .ideal R fuel' b store = .ok w ust)
      ↔ ¬ Occurs G (fun a => (objs a).isSome = true) v (.string (bytes "n")) := by
  obtain ⟨fuel, b, st, hp, -, hor⟩ :=
    h.exchange.roundTrip h.sim (fun _ _ _ _ => rfl) hv
  rcases hor with ⟨hname, fuel', w, ust, done, H, hu, -⟩ | ⟨hname, N, hN⟩
  · exact ⟨fun _ => hname, fun _ => ⟨fuel, b, st, fuel', w, ust, hp, hu⟩⟩
  · refine ⟨?_, fun hn => absurd hname hn⟩
    rintro ⟨m, b', st', n, w, ust, hp', hu⟩
    obtain ⟨rfl, -⟩ := doPack_unique hp hp'
    obtain ⟨e, ust', he⟩ := hN (max n N) (le_max_right n N)
    have hu' := (doUnpack_of_le (le_max_left n N) (by
      rw [show doUnpack .ideal R n b _ = _ from hu]
      nofun)).trans hu
    exact absurd (he.symm.trans hu') (by simp)

/-- **Strings are opaque exactly when `"n"` does not occur.** The first line is
about every call of `box.pack`, whether it returns or raises; the second about
those that return; the third about a string by itself; and the last about what
a receiver can decode that understands everything else. -/
theorem strings_opaque_iff [Fintype α] (G : Graph α) (objs : Option (α → Option ℕ))
    (v : Value α) :
    (Opaque G objs v ↔ ∀ st, ¬ Visits G v ⟨.initial, objs⟩ (.string (bytes "n")) st) ∧
    (∀ fuel b st, pack G objs fuel v = .ok b st →
      (Opaque G objs v ↔ ¬ Occurs G
        (fun a => (objs.bind (fun objs => objs a)).isSome = true) v (.string (bytes "n")))) ∧
    (∀ (ω τ : Type) [DecidableEq ω] (R : Receiver ω τ) (store : Store ω τ) (s : Bytes),
      v = .string s → ((∃ fuel b st fuel' ust, pack G objs fuel v = .ok b st ∧
        unpack .ideal R fuel' b store = .ok (.string s) ust) ↔ s ≠ bytes "n")) ∧
    (∀ (ω τ : Type) [DecidableEq ω] (R : Receiver ω τ) (store : Store ω τ) (ids : Set ℕ)
      (held : τ → Set ℕ) (objs' : α → Option ℕ), objs = some objs' →
      Understands G objs' R store ids held → v.Sendable →
      ((∃ fuel b st fuel' w ust, pack G objs fuel v = .ok b st ∧
        unpack .ideal R fuel' b store = .ok w ust) ↔ ¬ Occurs G
          (fun a => (objs' a).isSome = true) v (.string (bytes "n")))) := by
  refine ⟨opaque_iff_not_visits G objs v, fun fuel b st hp => ?_, ?_, ?_⟩
  · rw [opaque_iff_not_visits]
    have hknown : (fun a => (objs.bind (fun objs => objs a)).isSome = true)
        = fun a => (⟨.initial, objs⟩ : PackState α).knownId (.ref a) ≠ none := by
      funext a
      rw [Option.isSome_iff_ne_none]
      rfl
    rw [hknown]
    constructor
    · intro h hocc
      obtain ⟨st₁, hv⟩ := exists_visit_of_occurs hp (fun _ => rfl) hocc
      exact h st₁ hv
    · exact fun h st₁ hv => h (hv.occurs (fun _ ha => ha))
  · rintro ω τ _ R store s rfl
    constructor
    · rintro ⟨fuel, b, st, fuel', ust, hp, hu⟩ rfl
      obtain ⟨rfl, -⟩ := doPack_unique hp (doPack_counterName G ⟨.initial, objs⟩ 0)
      exact unpack_first_ref_ne_ok R fuel' store _ _ hu
    -- a string by itself is read by one step of the decoder
    · intro hs
      exact ⟨1, _, _, 1, _, doPack_string G hs _ 0, rfl⟩
  · rintro ω τ _ R store ids held objs' rfl h hv
    exact decodes_iff_not_occurs h hv

/-- A name of one letter that cannot be sent. -/
theorem not_unpack_pack_string :
    ¬ ∀ s : Bytes, ∃ fuel b st fuel' ust,
      pack (fun a : Empty => nomatch a) none fuel (.string s) = .ok b st ∧
        unpack .ideal (Receiver.plain Unit Unit) fuel' b ⟨[], ()⟩ = .ok (.string s) ust := by
  intro h
  obtain ⟨fuel, b, st, fuel', ust, hp, hu⟩ := h (bytes "n")
  obtain rfl := (doPack_unique hp (doPack_counterName _ ⟨.initial, none⟩ 0)).1
  exact unpack_first_ref_ne_ok _ fuel' _ _ _ hu

end Box

end Felt
