import Felt.Box.Unpack

/-!
# When unpacking ends

Two things could keep `box.unpack` from ending: the recursion through
elements, and the loop of `readtoc`. The recursion always ends. An element is
cut from the buffer behind the tag, so it is shorter than the box it stands
in, whatever the table of contents claims.

The loop need not. It counts down from a number the sender wrote, and never
looks at the entries it has run out of; in doubles, counting down by one from
`2 ^ 53 + 3` or more comes back to where it was, and a longer numeral is an
infinity. `unpack_terminates_iff` is exact: a call ends when, and only when,
every header it gets to announces a count of at most `2 ^ 53 + 2`.

`ReadsToc` names the headers a call gets to. Whether it gets to one depends on
what stands in front of it: an element is only read if those before it were read
without an error, and a module that is loaded for one of them may raise. So the
relation goes along with the states of the decoder, and has a call for each of
its elements.
-/

namespace Felt

namespace Box

variable {ω τ : Type} [DecidableEq ω] {A : Arith} {R : Receiver ω τ}

/-- **`buf`, unpacked from `st`, has `readtoc` read `b`**: `b` is what stands
behind the tag of the box itself, or of an element the decoder gets to – one
whose predecessors decoded. -/
inductive ReadsToc (A : Arith) (R : Receiver ω τ) :
    Bytes → UnpackState ω τ → Bytes → Prop where
  /-- A table reads its own header. -/
  | table (buf : Bytes) (st : UnpackState ω τ) : ReadsToc A R (84 :: buf) st buf
  /-- A call object reads its own header. -/
  | call (buf : Bytes) (st : UnpackState ω τ) : ReadsToc A R (67 :: buf) st buf
  /-- An element of a table, behind elements that decoded. -/
  | element {buf b x : Bytes} {st st₁ st₂ : UnpackState ω τ} {fuel : ℕ} {pre post : List Bytes}
      {data : List (Value (Point ω))}
      (htoc : readtoc A fuel buf st.enterTable = .ok (pre ++ x :: post) st₁)
      (hpre : Run.mapList (doUnpack A R fuel) pre st₁ = .ok data st₂)
      (hx : ReadsToc A R x st₂ b) : ReadsToc A R (84 :: buf) st b
  /-- The type of a call object. -/
  | type {buf b x : Bytes} {st st₁ : UnpackState ω τ} {fuel : ℕ} {data : List Bytes}
      (htoc : readtoc A fuel buf st.enterCall = .ok data st₁) (h0 : data[0]? = some x)
      (hx : ReadsToc A R x st₁ b) : ReadsToc A R (67 :: buf) st b
  /-- The argument of a call object, behind a type that decoded. -/
  | arg {buf b x y : Bytes} {st st₁ st₂ : UnpackState ω τ} {fuel : ℕ} {data : List Bytes}
      {type : Value (Point ω)}
      (htoc : readtoc A fuel buf st.enterCall = .ok data st₁) (h0 : data[0]? = some x)
      (htype : doUnpack A R fuel x st₁ = .ok type st₂) (h1 : data[1]? = some y)
      (hy : ReadsToc A R y st₂ b) : ReadsToc A R (67 :: buf) st b

/-- The count a header announces can be counted down. -/
def CountEnds (A : Arith) (b : Bytes) : Prop :=
  ∀ size next, tocCount b = some (size, next) → ∃ k, A.Ends k (A.read size)

/-- Counting down that ends within `k` rounds ends within more. -/
theorem ends_of_le {m n : ℕ} (hmn : m ≤ n) {v : A.Num} (h : A.Ends m v) : A.Ends n v := by
  induction n generalizing m v with
  | zero =>
    obtain rfl : m = 0 := by omega
    exact h
  | succ n ih =>
    cases m with
    | zero => exact Or.inl h
    | succ m => exact h.imp_right (ih (by omega))

omit [DecidableEq ω] in
/-- A count that ends gives `readtoc` fuel enough. -/
theorem readtoc_ne_timeout_of_countEnds {b : Bytes} (h : CountEnds A b)
    (st : UnpackState ω τ) :
    ∃ k, ∀ fuel ≥ k, (readtoc A fuel b : Run (UnpackState ω τ) BoxError _) st ≠ .timeout := by
  rcases hc : tocCount b with _ | ⟨size, next⟩
  · refine ⟨0, fun fuel _ ht => ?_⟩
    obtain ⟨size, next, hs, -⟩ := (readtoc_eq_timeout_iff fuel b st).mp ht
    rw [hc] at hs
    exact absurd hs (by simp)
  · obtain ⟨k, hk⟩ := h size next hc
    refine ⟨k, fun fuel hfuel ht => ?_⟩
    obtain ⟨size', next', hs, hends⟩ := (readtoc_eq_timeout_iff fuel b st).mp ht
    obtain ⟨rfl, rfl⟩ := Prod.mk.inj (Option.some.inj (hs.symm.trans hc))
    exact hends (ends_of_le hfuel hk)

omit [DecidableEq ω] in
theorem countEnds_of_readtoc_ne_timeout {b : Bytes} {fuel : ℕ} {st : UnpackState ω τ}
    (h : (readtoc A fuel b : Run (UnpackState ω τ) BoxError _) st ≠ .timeout) :
    CountEnds A b := by
  intro size next hc
  refine ⟨fuel, ?_⟩
  by_contra hends
  exact h ((readtoc_eq_timeout_iff fuel b st).mpr ⟨size, next, hc, hends⟩)

/-! ## A call that ends has only ended loops -/

omit [DecidableEq ω] in
theorem readtoc_of_le {m n : ℕ} (hmn : m ≤ n) {buf : Bytes} {st st' : UnpackState ω τ}
    {data : List Bytes} (h : readtoc A m buf st = .ok data st') :
    readtoc A n buf st = .ok data st' :=
  (Run.Approx.of_le (fun k => readtoc_approx k buf) hmn).ok h

/-- A box that has an answer has it at more fuel, an element of it too. -/
theorem countEnds_of_readsToc {buf b : Bytes} {st : UnpackState ω τ}
    (hr : ReadsToc A R buf st b) {fuel : ℕ} (h : doUnpack A R fuel buf st ≠ .timeout) :
    CountEnds A b := by
  induction hr generalizing fuel with
  | table buf st =>
    cases fuel with
    | zero => exact absurd rfl h
    | succ fuel =>
      rw [doUnpack_table] at h
      exact countEnds_of_readtoc_ne_timeout (fun ht => h (Run.bind_of_timeout ht))
  | call buf st =>
    cases fuel with
    | zero => exact absurd rfl h
    | succ fuel =>
      rw [doUnpack_call] at h
      exact countEnds_of_readtoc_ne_timeout (fun ht => h (Run.bind_of_timeout ht))
  | @element buf b x st st₁ st₂ k pre post data htoc hpre hx ih =>
    -- at an amount of fuel that is enough for everything that has an answer
    have hF := doUnpack_of_le (n := max fuel k + 1) (by omega) h
    rw [← hF, doUnpack_table, Run.bind_of_ok (readtoc_of_le (le_max_right fuel k) htoc)] at h
    refine @ih (max fuel k) (fun ht => h (Run.bind_of_timeout ?_))
    exact Run.mapList_eq_timeout.mpr ⟨pre, x, post, data, st₂, rfl,
      mapList_doUnpack_of_le (le_max_right fuel k) hpre, ht⟩
  | @type buf b x st st₁ k data htoc h0 hx ih =>
    have hF := doUnpack_of_le (n := max fuel k + 1) (by omega) h
    rw [← hF, doUnpack_call, Run.bind_of_ok (readtoc_of_le (le_max_right fuel k) htoc),
      h0] at h
    exact ih (fun ht => h (Run.bind_of_timeout ht))
  | @arg buf b x y st st₁ st₂ k data type htoc h0 htype h1 hy ih =>
    have hF := doUnpack_of_le (n := max fuel k + 1) (by omega) h
    have htype' : (Run.assertSome (some x) (.refused "index nil")
        >>= doUnpack A R (max fuel k)) st₁ = .ok type st₂ := by
      refine ((doUnpack_of_le (le_max_right fuel k) ?_).trans htype :)
      rw [htype]
      nofun
    rw [← hF, doUnpack_call, Run.bind_of_ok (readtoc_of_le (le_max_right fuel k) htoc),
      h0, h1, Run.bind_of_ok htype'] at h
    exact ih (fun ht => h (Run.bind_of_timeout ht))

/-! ## Ended loops are all it takes -/

/-- The elements of a list unpack within one amount of fuel, if every element
the decoder gets to does. -/
theorem mapList_doUnpack_ne_timeout {l : List Bytes} {st : UnpackState ω τ}
    (h : ∀ pre x post data st' fuel, l = pre ++ x :: post →
      Run.mapList (doUnpack A R fuel) pre st = .ok data st' →
      ∃ fuel, doUnpack A R fuel x st' ≠ .timeout) :
    ∃ fuel, Run.mapList (doUnpack A R fuel) l st ≠ .timeout := by
  induction l generalizing st with
  | nil => exact ⟨0, nofun⟩
  | cons x l ih =>
    obtain ⟨m, hm⟩ := h [] x l [] st 0 rfl rfl
    rcases hx : doUnpack A R m x st with ⟨v, st₁⟩ | ⟨e, st₁⟩ | _
    · have hrest : ∀ pre y post data st' fuel, l = pre ++ y :: post →
          Run.mapList (doUnpack A R fuel) pre st₁ = .ok data st' →
          ∃ fuel, doUnpack A R fuel y st' ≠ .timeout := by
        intro pre y post data st' fuel hl hpre
        refine h (x :: pre) y post (v :: data) st' (max m fuel) (by rw [hl]; rfl) ?_
        refine Run.mapList_cons_eq_ok.mpr ⟨v, st₁, data, ?_,
          mapList_doUnpack_of_le (le_max_right m fuel) hpre, rfl⟩
        rw [doUnpack_of_le (le_max_left m fuel) hm, hx]
      obtain ⟨k, hk⟩ := ih hrest
      refine ⟨max m k, Run.bind_ne_timeout ?_ (fun w st' hw => ?_)⟩
      · rw [doUnpack_of_le (le_max_left m k) hm, hx]
        nofun
      · rw [doUnpack_of_le (le_max_left m k) hm, hx] at hw
        obtain ⟨rfl, rfl⟩ := (Outcome.ok.injEq ..).mp hw
        refine Run.bind_ne_timeout (fun ht => hk ?_) (fun _ _ _ => by simp)
        rw [← ht]
        exact ((Run.Approx.mapList (fun b => Run.Approx.of_le
          (fun k => doUnpack_approx A R k b) (le_max_right m k)) l) _ hk).symm
    · refine ⟨m, fun ht => ?_⟩
      rw [Run.mapList_cons, Run.bind_of_error hx] at ht
      exact absurd ht (by simp)
    · exact absurd hx hm

/-- An element that may be missing unpacks within one amount of fuel, and the
same at more. -/
theorem element_ne_timeout {x? : Option Bytes} (e : BoxError) (st : UnpackState ω τ)
    (h : ∀ x, x? = some x → ∃ fuel, doUnpack A R fuel x st ≠ .timeout) :
    ∃ m, (Run.assertSome x? e >>= doUnpack A R m) st ≠ .timeout ∧
      ∀ fuel ≥ m, (Run.assertSome x? e >>= doUnpack A R fuel) st
        = (Run.assertSome x? e >>= doUnpack A R m) st := by
  rcases x? with _ | x
  · exact ⟨0, nofun, fun _ _ => rfl⟩
  · obtain ⟨m, hm⟩ := h x rfl
    exact ⟨m, hm, fun fuel hfuel => doUnpack_of_le hfuel hm⟩

/-- **Every nesting ends**: a box all of whose headers announce counts that can
be counted down has an answer. The induction is on the length of the box – an
element is cut from what stands behind the tag. -/
theorem exists_doUnpack_ne_timeout (buf : Bytes) (st : UnpackState ω τ)
    (h : ∀ b, ReadsToc A R buf st b → CountEnds A b) :
    ∃ fuel, doUnpack A R fuel buf st ≠ .timeout := by
  induction hn : buf.length using Nat.strong_induction_on generalizing buf st with
  | _ n ih =>
    subst hn
    rcases buf with _ | ⟨tag, buf⟩
    · exact ⟨1, nofun⟩
    by_cases hT : tag = 84
    · subst hT
      obtain ⟨k, hk⟩ := readtoc_ne_timeout_of_countEnds (h buf (.table buf st)) st.enterTable
      rcases hr : readtoc A k buf st.enterTable with ⟨elements, st₁⟩ | ⟨e, st₁⟩ | _
      · obtain ⟨-, hlen⟩ := length_le_of_readtoc hr
        have helems : ∃ fuel, Run.mapList (doUnpack A R fuel) elements st₁ ≠ .timeout := by
          refine mapList_doUnpack_ne_timeout (fun pre x post data st' fuel hl hpre => ?_)
          have hx : x.length ≤ buf.length := hlen x (by simp [hl])
          refine ih x.length (Nat.lt_succ_of_le hx) x st' (fun b hb => h b ?_) rfl
          refine .element (readtoc_of_le (le_max_left k fuel) (hl ▸ hr))
            (mapList_doUnpack_of_le (le_max_right k fuel) hpre) hb
        obtain ⟨m, hm⟩ := helems
        refine ⟨max k m + 1, fun ht => ?_⟩
        rw [doUnpack_table, Run.bind_of_ok (readtoc_of_le (le_max_left k m) hr)] at ht
        revert ht
        refine Run.bind_ne_timeout (fun ht => hm ?_) (fun data st₂ _ => ?_)
        · rw [← ht]
          exact ((Run.Approx.mapList (fun b => Run.Approx.of_le
            (fun k => doUnpack_approx A R k b) (le_max_right k m)) elements) _ hm).symm
        · exact Run.bind_ne_timeout (setEntries_ne_timeout _ _ _) (fun _ _ _ => nofun)
      · refine ⟨k + 1, fun ht => ?_⟩
        rw [doUnpack_table, Run.bind_of_error hr] at ht
        exact absurd ht (by simp)
      · exact absurd hr (hk k le_rfl)
    by_cases hC : tag = 67
    · subst hC
      obtain ⟨k, hk⟩ := readtoc_ne_timeout_of_countEnds (h buf (.call buf st)) st.enterCall
      rcases hr : readtoc A k buf st.enterCall with ⟨data, st₁⟩ | ⟨e, st₁⟩ | _
      · obtain ⟨-, hlen⟩ := length_le_of_readtoc hr
        have hshort : ∀ (i : ℕ) (x : Bytes), data[i]? = some x →
            x.length < (67 :: buf).length :=
          fun i x hx => Nat.lt_succ_of_le (hlen x (List.mem_of_getElem? hx))
        obtain ⟨m, hm, hm'⟩ := element_ne_timeout (A := A) (R := R) (.refused "index nil") st₁
          (fun x h0 => ih _ (hshort 0 x h0) x st₁ (fun b hb => h b (.type hr h0 hb)) rfl)
        rcases ht : (Run.assertSome data[0]? (.refused "index nil")
            >>= doUnpack A R m) st₁ with ⟨type, st₂⟩ | ⟨e, st₂⟩ | _
        · -- the type decoded, so the argument is looked at
          have harg : ∀ y, data[1]? = some y → ∃ fuel, doUnpack A R fuel y st₂ ≠ .timeout := by
            intro y h1
            refine ih _ (hshort 1 y h1) y st₂ (fun b hb => h b ?_) rfl
            have ht' := (hm' (max k m) (le_max_right k m)).trans ht
            rcases h0 : data[0]? with _ | x
            · rw [h0] at ht'
              exact absurd ht' (by simp [Run.bind_apply])
            · rw [h0] at ht'
              exact .arg (readtoc_of_le (le_max_left k m) hr) h0 ht' h1 hb
          obtain ⟨l, hl, hl'⟩ := element_ne_timeout (.refused "index nil") st₂ harg
          refine ⟨max k (max m l) + 1, ?_⟩
          rw [doUnpack_call, Run.bind_of_ok (readtoc_of_le (by omega) hr),
            Run.bind_of_ok ((hm' _ (by omega)).trans ht)]
          refine Run.bind_ne_timeout ?_ (fun arg st₃ _ => ?_)
          · rw [hl' _ (by omega)]
            exact hl
          · exact Run.bind_ne_timeout (instantiate_ne_timeout _ _ _ _) (fun _ _ _ => nofun)
        · refine ⟨max k m + 1, fun ht' => ?_⟩
          rw [doUnpack_call, Run.bind_of_ok (readtoc_of_le (le_max_left k m) hr),
            Run.bind_of_error ((hm' _ (le_max_right k m)).trans ht)] at ht'
          exact absurd ht' (by simp)
        · exact absurd ht hm
      · refine ⟨k + 1, fun ht => ?_⟩
        rw [doUnpack_call, Run.bind_of_error hr] at ht
        exact absurd ht (by simp)
      · exact absurd hr (hk k le_rfl)
    · refine ⟨1, doUnpack_leaf_ne_timeout A R ?_ ?_ 0 st⟩
      · simpa using hT
      · simpa using hC

/-! ## The calls of `box.unpack` that end -/

/-- **`box.unpack` ends exactly when no header it gets to announces more than
`2 ^ 53 + 2` entries**, whatever the receiver brings and however deep the
nesting. -/
theorem unpack_terminates_iff (number2integer : Number → ℤ) (R : Receiver ω τ) (buf : Bytes)
    (store : Store ω τ) :
    (∃ fuel, unpack (.double number2integer) R fuel buf store ≠ .timeout)
      ↔ ∀ b, ReadsToc (.double number2integer) R buf ⟨[], store, []⟩ b →
          ∀ size next, tocCount b = some (size, next) → ofDecimal size ≤ 2 ^ 53 + 2 := by
  constructor
  · rintro ⟨fuel, h⟩ b hb size next hc
    exact (Arith.double_ends_iff number2integer _).mp (countEnds_of_readsToc hb h size next hc)
  · intro h
    refine exists_doUnpack_ne_timeout buf _ (fun b hb size next hc => ?_)
    exact (Arith.double_ends_iff number2integer _).mpr (h b hb size next hc)

/-- A table of eighteen bytes that keeps the decoder for ever. -/
theorem not_terminates_large_count :
    ¬ ∀ (number2integer : Number → ℤ) (buf : Bytes) (store : Store Unit Unit),
      ∃ fuel, unpack (.double number2integer) (Receiver.plain Unit Unit) fuel buf store
        ≠ .timeout := by
  intro h
  obtain ⟨fuel, hfuel⟩ := h (fun _ => 0) (bytes "T9007199254740996:") ⟨[], ()⟩
  have hends := countEnds_of_readsToc (.table (bytes "9007199254740996:") _) hfuel
    (bytes "9007199254740996") [] (by decide +kernel)
  have hle := (Arith.double_ends_iff _ _).mp hends
  exact absurd hle (by decide +kernel)

end Box

end Felt
