import Mathlib.Data.List.Basic

/-!
# Computations that raise, and computations that do not end

A piece of Lua does one of three things: it returns, it raises, or it runs
for ever. In all but the last the state it leaves is visible – an error that
is caught keeps every assignment made before it was raised – so an outcome
carries the state in both of the first two cases.

A computation that may not end is written with an amount of fuel, and
`timeout` is what it answers when the fuel is too small. What the fuel stands
for is the order `Run.Approx`: a computation approximates another when it
agrees with it wherever it does not time out. Every combinator below is
monotone for that order, so a recursion written with fuel agrees with itself
at every larger amount, and *ends* means that some amount is enough.

So there are three ways to say that a computation is done with: it returns
(`Run.Returns` in `Felt.Lua.Triple`), it ends one way or the other (`Run.Ends`),
or it leaves a state, whichever way (`Run.Leaves`), which is what a caller sees
that protects the call. The first two are for what is to be proved of a
program, the third is what a step of a system is made of.

Equations come first: what each combinator does with an outcome of each kind
(`bind_of_ok`, `bind_of_error`, `xpcall` and so on), and what an outcome of the
whole says about the parts (`bind_eq_ok`). A proof about a particular call goes
through its source with the former, and a proof about every call with the
latter.
-/

namespace Felt

/-- What a computation does, from a state: return a value, raise an error –
each in the state it leaves – or spend its fuel. -/
inductive Outcome (σ ε α : Type) where
  /-- The computation returns. -/
  | ok (a : α) (s : σ)
  /-- The computation raises. -/
  | error (e : ε) (s : σ)
  /-- The fuel was not enough. -/
  | timeout

/-- **A computation** over a state `σ` with errors `ε`. -/
def Run (σ ε α : Type) : Type := σ → Outcome σ ε α

namespace Run

variable {σ ε α β γ : Type}

/-- Return a value and leave the state alone. -/
protected def pure (a : α) : Run σ ε α := fun s => .ok a s

/-- Run `x`, then run `f` from where it returned. An error or a timeout of
`x` is the outcome of the whole. -/
protected def bind (x : Run σ ε α) (f : α → Run σ ε β) : Run σ ε β := fun s =>
  match x s with
  | .ok a s' => f a s'
  | .error e s' => .error e s'
  | .timeout => .timeout

instance : Monad (Run σ ε) where
  pure := Run.pure
  bind := Run.bind

/-- Raise an error. -/
def throw (e : ε) : Run σ ε α := fun s => .error e s

/-- Spend all the fuel. -/
def timeout : Run σ ε α := fun _ => .timeout

/-- Read the state. -/
def get : Run σ ε σ := fun s => .ok s s

/-- Change the state. -/
def modify (f : σ → σ) : Run σ ε Unit := fun s => .ok () (f s)

/-- A computed answer, or the error it failed with. -/
def ofExcept (x : Except ε α) : Run σ ε α := fun s =>
  match x with
  | .ok a => .ok a s
  | .error e => .error e s

/-- Lua's `assert` on a value that may be absent. -/
def assertSome (x : Option α) (e : ε) : Run σ ε α := fun s =>
  match x with
  | some a => .ok a s
  | none => .error e s

/-- **A protected call.** An error is handed to the handler, which runs in
the state the error was raised in; an error of the handler itself is
swallowed, and what it did before raising stays. -/
def xpcall (x : Run σ ε α) (handler : ε → Run σ ε β) : Run σ ε Unit := fun s =>
  match x s with
  | .ok _ s' => .ok () s'
  | .error e s' =>
    match handler e s' with
    | .ok _ s'' => .ok () s''
    | .error _ s'' => .ok () s''
    | .timeout => .timeout
  | .timeout => .timeout

/-- Apply a computation to each element of a list, in order, and collect what
it returns. The first error is the outcome of the whole. -/
def mapList (f : α → Run σ ε β) : List α → Run σ ε (List β)
  | [] => pure []
  | a :: l => do
    let b ← f a
    let bs ← mapList f l
    pure (b :: bs)

/-- Run a computation on each element of a list, in order. -/
def forList (f : α → Run σ ε Unit) : List α → Run σ ε Unit
  | [] => pure ()
  | a :: l => do
    f a
    forList f l

/-- **`x` takes `s` to `s'`**, by an answer or by an error. -/
def Leaves (x : Run σ ε α) (s s' : σ) : Prop :=
  (∃ a, x s = .ok a s') ∨ ∃ e, x s = .error e s'

/-! ## What each combinator does -/

@[simp] theorem pure_apply (a : α) (s : σ) :
    (pure a : Run σ ε α) s = .ok a s := rfl

theorem bind_apply (x : Run σ ε α) (f : α → Run σ ε β) (s : σ) :
    (x >>= f) s = match x s with
      | .ok a s' => f a s'
      | .error e s' => .error e s'
      | .timeout => .timeout := rfl

theorem bind_of_ok {x : Run σ ε α} {f : α → Run σ ε β} {s s' : σ} {a : α}
    (h : x s = .ok a s') : (x >>= f) s = f a s' := by
  rw [bind_apply, h]

theorem bind_of_error {x : Run σ ε α} {f : α → Run σ ε β} {s s' : σ} {e : ε}
    (h : x s = .error e s') : (x >>= f) s = .error e s' := by
  rw [bind_apply, h]

theorem bind_of_timeout {x : Run σ ε α} {f : α → Run σ ε β} {s : σ}
    (h : x s = .timeout) : (x >>= f) s = .timeout := by
  rw [bind_apply, h]

/-- A sequence returns exactly when both of its halves do. -/
theorem bind_eq_ok {x : Run σ ε α} {f : α → Run σ ε β} {s s'' : σ} {b : β} :
    (x >>= f) s = .ok b s'' ↔ ∃ a s', x s = .ok a s' ∧ f a s' = .ok b s'' := by
  rw [bind_apply]
  cases x s with
  | ok a s' => simp
  | error e s' => simp
  | timeout => simp

/-- A sequence raises when one of its halves does. -/
theorem bind_eq_error {x : Run σ ε α} {f : α → Run σ ε β} {s s'' : σ} {e : ε} :
    (x >>= f) s = .error e s''
      ↔ x s = .error e s'' ∨ ∃ a s', x s = .ok a s' ∧ f a s' = .error e s'' := by
  rw [bind_apply]
  cases x s with
  | ok a s' => simp
  | error e s' => simp
  | timeout => simp

/-- A sequence times out exactly when one of its halves does. -/
theorem bind_eq_timeout {x : Run σ ε α} {f : α → Run σ ε β} {s : σ} :
    (x >>= f) s = .timeout
      ↔ x s = .timeout ∨ ∃ a s', x s = .ok a s' ∧ f a s' = .timeout := by
  rw [bind_apply]
  cases x s with
  | ok a s' => simp
  | error e s' => simp
  | timeout => simp

/-- A sequence whose halves do not time out does not. -/
theorem bind_ne_timeout {x : Run σ ε α} {f : α → Run σ ε β} {s : σ}
    (hx : x s ≠ .timeout) (hf : ∀ a s', x s = .ok a s' → f a s' ≠ .timeout) :
    (x >>= f) s ≠ .timeout := fun h => by
  rcases bind_eq_timeout.mp h with h | ⟨a, s', ha, h⟩
  · exact hx h
  · exact hf a s' ha h

theorem ofExcept_ne_timeout (x : Except ε α) (s : σ) : ofExcept x s ≠ .timeout := by
  cases x <;> nofun

theorem assertSome_ne_timeout (x : Option α) (e : ε) (s : σ) :
    assertSome x e s ≠ .timeout := by
  cases x <;> nofun

@[simp] theorem throw_apply (e : ε) (s : σ) :
    (throw e : Run σ ε α) s = .error e s := rfl

@[simp] theorem timeout_apply (s : σ) :
    (timeout : Run σ ε α) s = .timeout := rfl

@[simp] theorem get_apply (s : σ) : (get : Run σ ε σ) s = .ok s s := rfl

@[simp] theorem modify_apply (f : σ → σ) (s : σ) :
    (modify f : Run σ ε Unit) s = .ok () (f s) := rfl

@[simp] theorem ofExcept_ok (a : α) (s : σ) :
    (ofExcept (.ok a) : Run σ ε α) s = .ok a s := rfl

@[simp] theorem ofExcept_error (e : ε) (s : σ) :
    (ofExcept (.error e) : Run σ ε α) s = .error e s := rfl

@[simp] theorem assertSome_some (a : α) (e : ε) (s : σ) :
    (assertSome (some a) e : Run σ ε α) s = .ok a s := rfl

@[simp] theorem assertSome_none (e : ε) (s : σ) :
    (assertSome none e : Run σ ε α) s = .error e s := rfl

/-- What an `assert` answers was there, and nothing has changed. -/
theorem assertSome_eq_ok {x : Option α} {e : ε} {a : α} {s s' : σ} :
    assertSome x e s = .ok a s' ↔ x = some a ∧ s' = s := by
  cases x with
  | none => simp
  | some b => simp [eq_comm]

/-- A computation that returns leaves the state it returned in. -/
theorem Leaves.of_ok {x : Run σ ε α} {s s' t : σ} {a : α} (h : x.Leaves s s')
    (hx : x s = .ok a t) : s' = t := by
  rcases h with ⟨a', ha⟩ | ⟨e, he⟩
  · rw [hx] at ha
    cases ha
    rfl
  · rw [hx] at he
    cases he

/-- A computation that raises leaves the state it raised in. -/
theorem Leaves.of_error {x : Run σ ε α} {s s' t : σ} {e : ε} (h : x.Leaves s s')
    (hx : x s = .error e t) : s' = t := by
  rcases h with ⟨a, ha⟩ | ⟨e', he⟩
  · rw [hx] at ha
    cases ha
  · rw [hx] at he
    cases he
    rfl

/-- What a sequence leaves is left by the half that raises, or by the second. -/
theorem leaves_bind {x : Run σ ε α} {f : α → Run σ ε β} {s s'' : σ} :
    (x >>= f).Leaves s s''
      ↔ (∃ e, x s = .error e s'') ∨ ∃ a s', x s = .ok a s' ∧ (f a).Leaves s' s'' := by
  unfold Leaves
  rw [bind_apply]
  cases x s with
  | ok a s' => simp
  | error e s' => simp
  | timeout => simp

/-- What a protected call leaves whose body raises is what its handler
leaves. -/
theorem Leaves.of_xpcall {x : Run σ ε α} {handler : ε → Run σ ε β} {s s' t : σ} {e : ε}
    (hx : x s = .error e t) (hl : (xpcall x handler).Leaves s s') : (handler e).Leaves t s' := by
  unfold Leaves xpcall at hl
  rw [hx] at hl
  rcases hh : handler e t with ⟨b, t'⟩ | ⟨e', t'⟩ | _
  · simp only [hh] at hl
    rcases hl with ⟨_, h⟩ | ⟨_, h⟩
    · obtain ⟨-, rfl⟩ := Outcome.ok.inj h
      exact Or.inl ⟨b, hh⟩
    · cases h
  · simp only [hh] at hl
    rcases hl with ⟨_, h⟩ | ⟨_, h⟩
    · obtain ⟨-, rfl⟩ := Outcome.ok.inj h
      exact Or.inr ⟨e', hh⟩
    · cases h
  · simp only [hh] at hl
    rcases hl with ⟨_, h⟩ | ⟨_, h⟩ <;> cases h

theorem get_bind (f : σ → Run σ ε β) (s : σ) : (get >>= f) s = f s s := rfl

theorem modify_bind (g : σ → σ) (f : Unit → Run σ ε β) (s : σ) :
    (modify g >>= f) s = f () (g s) := rfl

theorem assertSome_bind (a : α) (e : ε) (f : α → Run σ ε β) :
    (assertSome (some a) e >>= f) = f a := rfl

@[simp] theorem mapList_nil (f : α → Run σ ε β) (s : σ) :
    mapList f [] s = .ok [] s := rfl

theorem mapList_cons (f : α → Run σ ε β) (a : α) (l : List α) :
    mapList f (a :: l)
      = (f a >>= fun b => mapList f l >>= fun bs => pure (b :: bs)) := rfl

/-- **A mapped list returns element by element.** -/
theorem mapList_cons_eq_ok {f : α → Run σ ε β} {a : α} {l : List α}
    {bs : List β} {s s'' : σ} :
    mapList f (a :: l) s = .ok bs s''
      ↔ ∃ b s' bs', f a s = .ok b s' ∧ mapList f l s' = .ok bs' s''
          ∧ bs = b :: bs' := by
  rw [mapList_cons, bind_eq_ok]
  constructor
  · rintro ⟨b, s', hb, hrest⟩
    obtain ⟨bs', s₂, hbs, hp⟩ := bind_eq_ok.mp hrest
    rw [pure_apply, Outcome.ok.injEq] at hp
    obtain ⟨rfl, rfl⟩ := hp
    exact ⟨b, s', bs', hb, hbs, rfl⟩
  · rintro ⟨b, s', bs', hb, hbs, rfl⟩
    exact ⟨b, s', hb, by rw [bind_of_ok hbs, pure_apply]⟩

theorem length_of_mapList {f : α → Run σ ε β} {l : List α} {bs : List β}
    {s s' : σ} (h : mapList f l s = .ok bs s') : bs.length = l.length := by
  induction l generalizing bs s with
  | nil =>
    cases h
    rfl
  | cons a l ih =>
    obtain ⟨b, s₁, bs', -, hl, rfl⟩ := mapList_cons_eq_ok.mp h
    simp [ih hl]

/-- A mapped list that returns has returned at every element. -/
theorem exists_ok_of_mapList {f : α → Run σ ε β} {l : List α} {bs : List β} {s s' : σ}
    (h : mapList f l s = .ok bs s') : ∀ a ∈ l, ∃ s₁ b s₂, f a s₁ = .ok b s₂ := by
  induction l generalizing bs s with
  | nil => exact fun a ha => absurd ha List.not_mem_nil
  | cons c l ih =>
    obtain ⟨b, s₁, bs', hc, hl, -⟩ := mapList_cons_eq_ok.mp h
    exact List.forall_mem_cons.mpr ⟨⟨s, b, s₁, hc⟩, ih hl⟩

/-- Mapping a list split in two is mapping its halves. -/
theorem mapList_append_eq_ok {f : α → Run σ ε β} {l₁ l₂ : List α}
    {bs : List β} {s s'' : σ} :
    mapList f (l₁ ++ l₂) s = .ok bs s''
      ↔ ∃ bs₁ bs₂ s', mapList f l₁ s = .ok bs₁ s' ∧ mapList f l₂ s' = .ok bs₂ s''
          ∧ bs = bs₁ ++ bs₂ := by
  induction l₁ generalizing bs s with
  | nil => simp
  | cons a l₁ ih =>
    rw [List.cons_append, mapList_cons_eq_ok]
    constructor
    · rintro ⟨b, s₁, bs', hb, hbs, rfl⟩
      obtain ⟨bs₁, bs₂, s', h₁, h₂, rfl⟩ := ih.mp hbs
      exact ⟨b :: bs₁, bs₂, s', mapList_cons_eq_ok.mpr ⟨b, s₁, bs₁, hb, h₁, rfl⟩,
        h₂, rfl⟩
    · rintro ⟨bs₁, bs₂, s', h₁, h₂, rfl⟩
      obtain ⟨b, s₁, bs', hb, hbs, rfl⟩ := mapList_cons_eq_ok.mp h₁
      exact ⟨b, s₁, bs' ++ bs₂, hb, ih.mpr ⟨bs', bs₂, s', hbs, h₂, rfl⟩, rfl⟩

/-- Mapping a list times out behind the elements that returned. -/
theorem mapList_eq_timeout {f : α → Run σ ε β} {l : List α} {s : σ} :
    mapList f l s = .timeout
      ↔ ∃ pre x post bs s', l = pre ++ x :: post ∧ mapList f pre s = .ok bs s'
          ∧ f x s' = .timeout := by
  induction l generalizing s with
  | nil => simp
  | cons a l ih =>
    rw [mapList_cons, bind_eq_timeout]
    constructor
    · rintro (ha | ⟨b, s₁, hb, hrest⟩)
      · exact ⟨[], a, l, [], s, rfl, rfl, ha⟩
      · rcases bind_eq_timeout.mp hrest with hl | ⟨bs, s₂, -, hp⟩
        · obtain ⟨pre, x, post, bs, s', rfl, hpre, hx⟩ := ih.mp hl
          exact ⟨a :: pre, x, post, b :: bs, s', rfl,
            mapList_cons_eq_ok.mpr ⟨b, s₁, bs, hb, hpre, rfl⟩, hx⟩
        · exact absurd hp (by simp)
    · rintro ⟨pre, x, post, bs, s', hl, hpre, hx⟩
      rcases pre with _ | ⟨a', pre⟩
      · obtain ⟨rfl, rfl⟩ := List.cons.inj hl
        cases hpre
        exact Or.inl hx
      · obtain ⟨rfl, rfl⟩ := List.cons.inj hl
        obtain ⟨b, s₁, bs', hb, hbs, rfl⟩ := mapList_cons_eq_ok.mp hpre
        exact Or.inr ⟨b, s₁, hb, bind_of_timeout
          (ih.mpr ⟨pre, x, post, bs', s', rfl, hbs, hx⟩)⟩

/-! ## Fuel -/

/-- **`x` approximates `y`**: wherever `x` does not time out, `y` does the
same. -/
def Approx (x y : Run σ ε α) : Prop := ∀ s, x s ≠ .timeout → y s = x s

theorem Approx.refl (x : Run σ ε α) : Approx x x := fun _ _ => rfl

theorem Approx.trans {x y z : Run σ ε α} (hxy : Approx x y)
    (hyz : Approx y z) : Approx x z := fun s hs => by
  have hy : y s = x s := hxy s hs
  rw [hyz s (by rw [hy]; exact hs), hy]

/-- A computation that has timed out approximates everything. -/
theorem Approx.timeout (y : Run σ ε α) : Approx Run.timeout y :=
  fun _ hs => absurd rfl hs

theorem Approx.ok {x y : Run σ ε α} (h : Approx x y) {s s' : σ} {a : α}
    (hx : x s = .ok a s') : y s = .ok a s' := by
  rw [h s (by rw [hx]; nofun), hx]

theorem Approx.error {x y : Run σ ε α} (h : Approx x y) {s s' : σ} {e : ε}
    (hx : x s = .error e s') : y s = .error e s' := by
  rw [h s (by rw [hx]; nofun), hx]

/-- **Sequencing is monotone.** -/
theorem Approx.bind {x y : Run σ ε α} {f g : α → Run σ ε β} (h : Approx x y)
    (hf : ∀ a, Approx (f a) (g a)) : Approx (x >>= f) (y >>= g) := by
  intro s hs
  rcases hx : x s with ⟨a, s'⟩ | ⟨e, s'⟩ | _
  · rw [bind_of_ok hx] at hs ⊢
    rw [bind_of_ok (h.ok hx)]
    exact hf a s' hs
  · rw [bind_of_error hx, bind_of_error (h.error hx)]
  · exact absurd (bind_of_timeout hx) hs

/-- **Mapping a list is monotone** in what is applied to its elements. -/
theorem Approx.mapList {f g : α → Run σ ε β} (h : ∀ a, Approx (f a) (g a))
    (l : List α) : Approx (Run.mapList f l) (Run.mapList g l) := by
  induction l with
  | nil => exact Approx.refl _
  | cons a l ih =>
    rw [mapList_cons, mapList_cons]
    exact (h a).bind (fun b => ih.bind (fun bs => Approx.refl _))

/-- A recursion whose step at one more unit of fuel extends the step before
agrees with itself at every larger amount. -/
theorem Approx.of_le {f : ℕ → Run σ ε α} (h : ∀ n, Approx (f n) (f (n + 1)))
    {n m : ℕ} (hnm : n ≤ m) : Approx (f n) (f m) := by
  induction hnm with
  | refl => exact Approx.refl _
  | step _ ih => exact ih.trans (h _)

end Run

end Felt
