import Mathlib.Algebra.Group.Even
import Felt.Box.Spare
import Felt.Box.Unpack

/-!
# Well-formed boxes

The format of a box is described next to the code, and `WellFormed` is that
description: what may follow each tag. The decoder does not check it. The
methods of the tags `n`, `t` and `f` do not look at what follows, numbers are
read by `tonumber`, which reads more than numbers in base ten, and a table of
contents is taken for what it says whether or not the lengths in it are as many
as it says, or add up to the bytes there are.

All of this is bytes the decoder passes over, or something it asks for and does
not get (`Felt.Box.Spare`). What the decoder cuts out of a message is what
`readtoc` makes of each table of contents (`Reads`), and a message that it
accepts is well formed exactly if nothing in any of this is passed over or
wanting: nothing else that is wrong with a message is accepted.
-/

namespace Felt

namespace Box

/-! ## The format -/

/-- **A well-formed box.** -/
inductive WellFormed : Bytes → Prop where
  /-- `n`. -/
  | nil : WellFormed [110]
  /-- `t`. -/
  | true : WellFormed [116]
  /-- `f`. -/
  | false : WellFormed [102]
  /-- `N`, and a number. -/
  | number {buf : Bytes} (h : BaseTen buf) : WellFormed (78 :: buf)
  /-- `S`, and anything. -/
  | string (buf : Bytes) : WellFormed (83 :: buf)
  /-- `R`, and an index. -/
  | ref {buf : Bytes} (h : BaseTen buf) : WellFormed (82 :: buf)
  /-- `O`, and an id. -/
  | object {buf : Bytes} (h : BaseTen buf) : WellFormed (79 :: buf)
  /-- `T`, a table of contents, and pairs of a key and a value. -/
  | table {buf : Bytes} {elements : List Bytes} (htoc : IsToc buf elements)
      (heven : Even elements.length) (helements : ∀ x ∈ elements, WellFormed x) :
      WellFormed (84 :: buf)
  /-- `C`, a table of contents, a type and an argument. -/
  | call {buf type arg : Bytes} (htoc : IsToc buf [type, arg]) (htype : WellFormed type)
      (harg : WellFormed arg) : WellFormed (67 :: buf)

/-! ## What the decoder reads -/

/-- **`y` is read out of `x`**: it is `x`, or is read out of an element that the
decoder cuts out of `x`. -/
inductive Reads (A : Arith) : Bytes → Bytes → Prop where
  /-- All of it. -/
  | self (x : Bytes) : Reads A x x
  /-- The elements of a table. -/
  | table {fuel : ℕ} {buf x y : Bytes} {elements : List Bytes}
      (htoc : readtoc A fuel buf () = .ok elements ()) (hx : x ∈ elements) (hy : Reads A x y) :
      Reads A (84 :: buf) y
  /-- The type and the argument of a call object. -/
  | call {fuel : ℕ} {buf x y : Bytes} {elements : List Bytes}
      (htoc : readtoc A fuel buf () = .ok elements ()) (hx : x ∈ elements.take 2)
      (hy : Reads A x y) : Reads A (67 :: buf) y

/-- **Nothing of a well-formed box is passed over, and nothing is wanting**,
its elements aside. -/
theorem WellFormed.skipped_wanting {buf : Bytes} (h : WellFormed buf) :
    skipped buf = 0 ∧ wanting buf = 0 := by
  have hplain : ∀ {b : Bytes}, BaseTen b → b.countP (fun c => !isPlainByte c) = 0 := fun hb =>
    List.countP_eq_zero.mpr (fun c hc => by rw [hb.plain c hc]; exact Bool.false_ne_true)
  cases h with
  | nil => exact ⟨rfl, rfl⟩
  | true => exact ⟨rfl, rfl⟩
  | false => exact ⟨rfl, rfl⟩
  | number h => exact ⟨hplain h, rfl⟩
  | string _ => exact ⟨rfl, rfl⟩
  | ref h => exact ⟨hplain h, rfl⟩
  | object h => exact ⟨hplain h, rfl⟩
  | @table buf elements htoc heven _ =>
    obtain ⟨hskipped, hwanting, hlength⟩ := tocSkipped_of_isToc htoc
    refine ⟨hskipped, ?_⟩
    show tocWanting buf + (tocNumerals buf).tail.length % 2 = 0
    rw [hwanting, List.length_tail, hlength, Nat.add_sub_cancel, Nat.even_iff.mp heven]
  | @call buf type arg htoc _ _ =>
    obtain ⟨hskipped, hwanting, hlength⟩ := tocSkipped_of_isToc htoc
    refine ⟨?_, hwanting⟩
    show tocSkipped ((tocNumerals buf).take 3) buf = 0
    rw [List.take_of_length_le (by rw [hlength]; rfl), hskipped]

/-- **Nothing that the decoder reads out of a well-formed box** passes anything
over or wants anything. -/
theorem WellFormed.skipped_wanting_of_reads {A : Arith} {buf x : Bytes} (hx : Reads A buf x)
    (hA : A.Exact (buf.length + 1)) (h : WellFormed buf) : skipped x = 0 ∧ wanting x = 0 := by
  induction hx with
  | self _ => exact h.skipped_wanting
  | @table fuel buf x y elements htoc hx _ ih =>
    have hbuf : A.Exact (buf.length + 1) := hA.mono (Nat.le_succ _)
    have hlength := (length_le_of_readtoc htoc).2 x hx
    cases h with
    | table htoc' _ helements =>
      obtain rfl := eq_of_readtoc hbuf htoc' htoc
      exact ih (hbuf.mono (Nat.succ_le_succ hlength)) (helements x hx)
  | @call fuel buf x y elements htoc hx _ ih =>
    have hbuf : A.Exact (buf.length + 1) := hA.mono (Nat.le_succ _)
    have hlength := (length_le_of_readtoc htoc).2 x (List.mem_of_mem_take hx)
    cases h with
    | call htoc' htype harg =>
      obtain rfl := eq_of_readtoc hbuf htoc' htoc
      refine ih (hbuf.mono (Nat.succ_le_succ hlength)) ?_
      rcases List.mem_cons.mp hx with rfl | hx
      · exact htype
      · rw [List.mem_singleton.mp hx]
        exact harg

/-! ## What the decoder accepts -/

section Accepts

variable {ω τ : Type} [DecidableEq ω] {A : Arith} {R : Receiver ω τ} {fuel : ℕ} {buf : Bytes}
  {st st' : UnpackState ω τ} {v : Value (Point ω)}

/-- **A table that is accepted** has a table of contents the decoder can read,
and elements it accepts. -/
theorem table_accepted (h : doUnpack A R (fuel + 1) (84 :: buf) st = .ok v st') :
    ∃ elements, readtoc A fuel buf () = .ok elements ()
      ∧ ∀ x ∈ elements, ∃ st₁ w st₂, doUnpack A R fuel x st₁ = .ok w st₂ := by
  cases unpackStep_of_doUnpack h with
  | leaf hT hC => exact absurd rfl hT
  | table htoc hdata hrefs => exact ⟨_, htoc, Run.exists_ok_of_mapList hdata⟩

/-- **A call object that is accepted**, likewise: it has a type and an
argument. -/
theorem call_accepted (h : doUnpack A R (fuel + 1) (67 :: buf) st = .ok v st') :
    ∃ type arg more, readtoc A fuel buf () = .ok (type :: arg :: more) ()
      ∧ ∀ x ∈ [type, arg], ∃ st₁ w st₂, doUnpack A R fuel x st₁ = .ok w st₂ := by
  cases unpackStep_of_doUnpack h with
  | leaf hT hC => exact absurd rfl hC
  | call htoc hdata hv hrefs => exact ⟨_, _, _, htoc, Run.exists_ok_of_mapList hdata⟩

omit [DecidableEq ω] in
/-- An index that is found, with nothing in it passed over, is a number in base
ten. -/
theorem baseTen_of_index (hindex : A.ReadsNumbers) {α : Type} {f : Number → Option α} {e : BoxError}
    {a : α} (hskipped : buf.countP (fun c => !isPlainByte c) = 0)
    (h : Run.assertSome ((A.index buf).bind f) e st = .ok a st') : BaseTen buf := by
  refine baseTen_of_tonumber (fun c hc => ?_) (hindex buf (fun hnone => ?_))
  · simpa using List.countP_eq_zero.mp hskipped c hc
  · rw [hnone] at h
    cases h

/-- What has no elements is well formed if it is accepted and nothing of it is
passed over. -/
theorem wellFormed_leaf (hindex : A.ReadsNumbers) (hT : buf.head? ≠ some 84)
    (hC : buf.head? ≠ some 67) (h : doUnpack A R (fuel + 1) buf st = .ok v st')
    (hskipped : skipped buf = 0) : WellFormed buf := by
  suffices hleaf : ∀ x, doUnpack A R (fuel + 1) buf = x → x st = .ok v st' → WellFormed buf from
    hleaf _ rfl h
  intro x hx h
  unfold doUnpack at hx
  -- one case for each tag
  split at hx
  · next heq => exact absurd heq (Nat.succ_ne_zero _)
  · subst hx; cases h
  · exact List.length_eq_zero_iff.mp hskipped ▸ .nil
  · exact List.length_eq_zero_iff.mp hskipped ▸ .true
  · exact List.length_eq_zero_iff.mp hskipped ▸ .false
  · subst hx
    obtain ⟨n, st₁, hn, -⟩ := Run.bind_eq_ok.mp h
    refine .number (baseTen_of_tonumber (fun c hc => ?_) (fun hnone => ?_))
    · simpa using List.countP_eq_zero.mp hskipped c hc
    · rw [hnone] at hn
      cases hn
  · exact .string _
  · subst hx
    rw [unpackR, Run.get_bind] at h
    obtain ⟨w, st₁, hw, -⟩ := Run.bind_eq_ok.mp h
    exact .ref (baseTen_of_index hindex hskipped hw)
  · subst hx
    rw [unpackO, Run.get_bind] at h
    obtain ⟨objs, st₁, -, h⟩ := Run.bind_eq_ok.mp h
    obtain ⟨o, st₂, ho, -⟩ := Run.bind_eq_ok.mp h
    exact .object (baseTen_of_index hindex hskipped ho)
  · exact absurd rfl hT
  · exact absurd rfl hC
  · subst hx; cases h

/-- **What is accepted, with nothing passed over and nothing wanting, is well
formed.** -/
theorem wellFormed_of_skipped (hindex : A.ReadsNumbers) (hA : A.Exact (buf.length + 1))
    (h : doUnpack A R fuel buf st = .ok v st')
    (hall : ∀ x, Reads A buf x → skipped x = 0 ∧ wanting x = 0) : WellFormed buf := by
  induction fuel generalizing buf st v st' with
  | zero => cases h
  | succ fuel ih =>
    obtain ⟨hskipped, hwanting⟩ := hall buf (.self buf)
    by_cases hT : buf.head? = some 84
    · obtain ⟨b, rfl⟩ := List.head?_eq_some_iff.mp hT
      obtain ⟨elements, hread, haccepted⟩ := table_accepted h
      obtain ⟨size, lens, hnumerals⟩ := List.exists_cons_of_ne_nil (tocNumerals_ne_nil hread)
      change tocSkipped (tocNumerals b) b = 0 at hskipped
      change tocWanting b + (tocNumerals b).tail.length % 2 = 0 at hwanting
      rw [hnumerals] at hskipped hwanting
      obtain ⟨hnothing, hodd⟩ := Nat.add_eq_zero_iff.mp hwanting
      obtain ⟨elements', htoc, hlength⟩ := isToc_of_tocSkipped hnumerals hskipped hnothing
      have hb : A.Exact (b.length + 1) := hA.mono (Nat.le_succ _)
      obtain rfl := eq_of_readtoc hb htoc hread
      refine .table htoc (Nat.even_iff.mpr (hlength ▸ hodd)) (fun x hx => ?_)
      obtain ⟨st₁, w, st₂, hx'⟩ := haccepted x hx
      exact ih (hb.mono (Nat.succ_le_succ ((length_le_of_readtoc hread).2 x hx))) hx'
        (fun y hy => hall y (.table hread hx hy))
    by_cases hC : buf.head? = some 67
    · obtain ⟨b, rfl⟩ := List.head?_eq_some_iff.mp hC
      obtain ⟨type, arg, more, hread, haccepted⟩ := call_accepted h
      obtain ⟨size, lens, hnumerals⟩ := List.exists_cons_of_ne_nil (tocNumerals_ne_nil hread)
      change tocSkipped ((tocNumerals b).take 3) b = 0 at hskipped
      have htwo := tocNumerals_of_tocSkipped hskipped
      rw [htwo, hnumerals] at hskipped
      obtain ⟨elements', htoc, hlength⟩ := isToc_of_tocSkipped hnumerals hskipped hwanting
      have hb : A.Exact (b.length + 1) := hA.mono (Nat.le_succ _)
      obtain rfl := eq_of_readtoc hb htoc hread
      -- there is no third length, as it would be passed over
      have hmore : more = [] := by
        have hthree := congrArg List.length htwo
        rw [List.length_take, hnumerals, List.length_cons, ← hlength] at hthree
        simp only [List.length_cons] at hthree
        exact List.length_eq_zero_iff.mp (by omega)
      subst hmore
      have helement : ∀ x ∈ [type, arg], WellFormed x := fun x hx => by
        obtain ⟨st₁, w, st₂, hx'⟩ := haccepted x hx
        exact ih (hb.mono (Nat.succ_le_succ ((length_le_of_readtoc hread).2 x hx))) hx'
          (fun y hy => hall y (.call hread hx hy))
      exact .call htoc (helement type List.mem_cons_self)
        (helement arg (List.mem_cons_of_mem _ (List.mem_singleton_self arg)))
    · exact wellFormed_leaf hindex hT hC h hskipped

end Accepts

/-- **A message that is accepted is well formed exactly if** nothing of it is
passed over and nothing is wanting, in whatever the decoder reads out of it. -/
theorem wellFormed_iff_of_unpack {ω τ : Type} [DecidableEq ω] {A : Arith} {R : Receiver ω τ}
    {fuel : ℕ} {buf : Bytes} {store : Store ω τ} {v : Value (Point ω)} {st : UnpackState ω τ}
    (hindex : A.ReadsNumbers) (hA : A.Exact (buf.length + 1))
    (h : unpack A R fuel buf store = .ok v st) :
    WellFormed buf ↔ ∀ x, Reads A buf x → skipped x = 0 ∧ wanting x = 0 :=
  ⟨fun hwf _ hx => hwf.skipped_wanting_of_reads hx hA,
    fun hall => wellFormed_of_skipped hindex hA h hall⟩

/-- The table that has `v` under the key `k`: `T2:2:2:SkSv`. -/
theorem wellFormed_iff_of_unpack_table :
    WellFormed [84, 50, 58, 50, 58, 50, 58, 83, 107, 83, 118]
      ↔ ∀ x, Reads .ideal [84, 50, 58, 50, 58, 50, 58, 83, 107, 83, 118] x →
        skipped x = 0 ∧ wanting x = 0 := by
  have hunpack : ∃ v st, unpack .ideal (Receiver.plain Empty Unit) 3
      [84, 50, 58, 50, 58, 50, 58, 83, 107, 83, 118] ⟨[], ()⟩ = .ok v st := ⟨_, _, rfl⟩
  obtain ⟨v, st, h⟩ := hunpack
  exact wellFormed_iff_of_unpack Arith.readsNumbers_ideal (Arith.exact_ideal _) h

/-- Two keys in a header that has a colon too many, and runs over the end by
one byte; a count with no lengths; and a third length behind a call object. -/
example : skipped (bytes "T2::1:2:tt") = 1 ∧ wanting (bytes "T2::1:2:tt") = 1
    ∧ wanting (bytes "T5:") = 5 ∧ skipped (bytes "C3:3:1:0:SxyS") = 2 := by decide

/-- **A word that starts with `n`** is nothing, however it goes on: `no`. -/
theorem not_wellFormed_of_unpack :
    ¬ ∀ (A : Arith) (R : Receiver Empty Unit) (fuel : ℕ) (buf : Bytes) (store : Store Empty Unit)
      (v : Value (Point Empty)) (st : UnpackState Empty Unit), A.Exact (buf.length + 1) →
        unpack A R fuel buf store = .ok v st → WellFormed buf := by
  intro h
  have hwf := h .ideal (Receiver.plain Empty Unit) 1 [110, 111] ⟨[], ()⟩ .nil ⟨[], ⟨[], ()⟩, []⟩
    (Arith.exact_ideal _) rfl
  exact absurd hwf.skipped_wanting.1 (Nat.succ_ne_zero _)

end Box

end Felt
