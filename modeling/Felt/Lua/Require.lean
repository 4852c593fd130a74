import Felt.Lua.Run
import Felt.Lua.Text
import Mathlib.Logic.Function.Basic
import Mathlib.Data.List.Basic
import Mathlib.Data.Finset.Card

/-!
# `require`

`require` runs the file of a module once and keeps what it returns in
`package.loaded`. While the file runs there is a sentinel in its place, and the
sentinel stays if the file raises: a module that is required before it has been
loaded to the end, or after that failed, is an error of its own. A file may put
itself in its place earlier, which is what `module` does.

A file is run for its effect on `package.loaded`. So it is a list of steps, of
which each requires a module, registers the file, or raises.

No file is started twice, so `require` comes to an end (`require_ne_timeout`).

What is left out of a file is everything that nobody else can see. It may
compute what it likes between two steps; the order of the steps is all that
`package.loaded` depends on. A file that is no chunk of Lua is there, but does
nothing. The text of an error is carried along in each case, as it is all that
`srequire` has to go by.

The measure for termination is the number of files whose module has no entry in
`package.loaded`. It goes down when a file is started, because of the sentinel,
and never goes up.
-/

namespace Felt

namespace Modules

variable {μ : Type}

/-- What is raised: a text, or something else. -/
inductive Raised where
  /-- A string. -/
  | text (b : Bytes)
  /-- Anything that is none, and that cannot be indexed. -/
  | other
  deriving DecidableEq

/-- **An entry of `package.loaded`.** -/
inductive Entry (μ : Type) where
  /-- The file has been started, and nothing has been put in this place. -/
  | sentinel
  /-- What the module is. -/
  | value (m : μ)
  deriving DecidableEq

/-- `package.loaded`. -/
abbrev Loaded (μ : Type) : Type := Bytes → Option (Entry μ)

/-- **What a file does**, as far as others notice. -/
inductive Step (μ : Type) where
  /-- It requires a module; errors name the position of the call. -/
  | require (pos name : Bytes)
  /-- It puts itself into `package.loaded`. -/
  | register (m : μ)
  /-- It raises. -/
  | raise (e : Raised)

/-- **A file.** -/
structure File (μ : Type) where
  /-- Where it is. -/
  filename : Bytes
  /-- What the compiler has to say, if it is no chunk of Lua. -/
  invalid : Option Bytes
  /-- What it does. -/
  steps : List (Step μ)
  /-- What it returns. -/
  result : Option μ

/-- **The files there are**, and where `require` looks for them. -/
structure Files (μ : Type) where
  /-- The file of each module. -/
  files : List (Bytes × File μ)
  /-- The templates of `package.path`. -/
  path : List Bytes
  /-- The templates of `package.cpath`. -/
  cpath : List Bytes
  /-- There is a place to look. -/
  path_ne_nil : path ≠ []
  /-- The value `true`. -/
  yes : μ

namespace Files

variable (F : Files μ)

/-- The file of a module. -/
def find (name : Bytes) : Option (File μ) :=
  (F.files.find? (fun p => p.1 = name)).map Prod.snd

end Files

/-! ## Errors -/

/-- A template with the name of a module in it. -/
def substitute (template name : Bytes) : Bytes :=
  template.flatMap (fun c =>
    if c = 63 then name.map (fun c => if c = 46 then 47 else c) else [c])

/-- What `findfile` says of a file that it does not find. -/
def noFile (templates : List Bytes) (name : Bytes) : Bytes :=
  templates.flatMap (fun t => bytes "\n\tno file '" ++ substitute t name ++ bytes "'")

/-- What the loaders say of a module that none of them finds. -/
def searched (F : Files μ) (name : Bytes) : Bytes :=
  bytes "\n\tno field package.preload['" ++ name ++ bytes "']" ++ noFile F.path name
    ++ noFile F.cpath name
    ++ if 46 ∈ name then noFile F.cpath (name.takeWhile (· ≠ 46)) else []

/-- The error for a module that is not there. -/
def notFoundText (F : Files μ) (pos name : Bytes) : Bytes :=
  pos ++ bytes "module '" ++ name ++ bytes "' not found:" ++ searched F name

/-- The error for a module that has been started. -/
def loopText (pos name : Bytes) : Bytes :=
  pos ++ bytes "loop or previous error loading module '" ++ name ++ bytes "'"

/-- The error for a file that does not compile. -/
def invalidText (name filename message : Bytes) : Bytes :=
  bytes "error loading module '" ++ name ++ bytes "' from file '" ++ filename ++ bytes "':\n\t"
    ++ message

/-- A newline, spaces, and `no file`. -/
def startsNoFile : Bytes → Bool
  | 10 :: c :: b => isSpace c && (bytes "no file").isPrefixOf (b.dropWhile isSpace)
  | _ => false

/-- **The pattern `"\n%s+no file"` occurs.** -/
def matchesNoFile : Bytes → Bool
  | [] => false
  | c :: b => startsNoFile (c :: b) || matchesNoFile b

theorem matchesNoFile_append {b : Bytes} (h : matchesNoFile b = true) (a : Bytes) :
    matchesNoFile (a ++ b) = true := by
  induction a with
  | nil => exact h
  | cons c a ih => rw [List.cons_append, matchesNoFile, ih, Bool.or_true]

theorem startsNoFile_append {b : Bytes} (h : startsNoFile b = true) (a : Bytes) :
    startsNoFile (b ++ a) = true := by
  unfold startsNoFile at h ⊢
  split at h
  · next c b =>
    obtain ⟨hc, hb⟩ := Bool.and_eq_true_iff.mp h
    have hprefix := List.isPrefixOf_iff_prefix.mp hb
    have hne : (b.dropWhile isSpace).isEmpty = false := by
      cases hd : b.dropWhile isSpace with
      | nil => exact absurd (List.prefix_nil.mp (hd ▸ hprefix)) (by decide)
      | cons d b => rfl
    refine Bool.and_eq_true_iff.mpr ⟨hc, List.isPrefixOf_iff_prefix.mpr ?_⟩
    change bytes "no file" <+: List.dropWhile isSpace (b ++ a)
    rw [List.dropWhile_append, hne]
    exact hprefix.trans (List.prefix_append _ a)
  · simp at h

theorem matchesNoFile_append_right {b : Bytes} (h : matchesNoFile b = true) (a : Bytes) :
    matchesNoFile (b ++ a) = true := by
  induction b with
  | nil => simp [matchesNoFile] at h
  | cons c b ih =>
    rw [matchesNoFile, Bool.or_eq_true] at h
    rw [List.cons_append, matchesNoFile, Bool.or_eq_true]
    exact h.imp (fun h => startsNoFile_append h a) ih

/-- **The error for a module that is not there says that there is no file.** -/
theorem matchesNoFile_notFoundText (F : Files μ) (pos name : Bytes) :
    matchesNoFile (notFoundText F pos name) = true := by
  obtain ⟨t, ts, hpath⟩ := List.exists_cons_of_ne_nil F.path_ne_nil
  have hfile : matchesNoFile (noFile F.path name) = true := by
    rw [noFile, hpath, List.flatMap_cons, List.append_assoc, List.append_assoc]
    exact matchesNoFile_append_right (by decide) _
  rw [notFoundText, searched]
  refine matchesNoFile_append ?_ _
  exact matchesNoFile_append_right (matchesNoFile_append_right (matchesNoFile_append hfile _) _) _

/-! ## Loading -/

/-- Put an entry into `package.loaded`. -/
def setEntry (name : Bytes) (e : Entry μ) : Run (Loaded μ) Raised Unit :=
  Run.modify (fun loaded => Function.update loaded name (some e))

/-- **A file is run**, with a way to require other modules. -/
def runSteps (require : Bytes → Bytes → Run (Loaded μ) Raised μ) (name : Bytes) :
    List (Step μ) → Run (Loaded μ) Raised Unit
  | [] => pure ()
  | .require pos other :: steps => do
    let _ ← require pos other
    runSteps require name steps
  | .register m :: steps => do
    setEntry name (.value m)
    runSteps require name steps
  | .raise e :: _ => Run.throw e

/-- The end of `ll_require`: what the file has returned is put in its place, and
if neither it nor the file itself has put anything there, it is `true`. Nobody
takes away the sentinel. -/
def finish (F : Files μ) (name : Bytes) (result : Option μ) : Run (Loaded μ) Raised μ := do
  match result with
  | some m => setEntry name (.value m)
  | none => pure ()
  let loaded ← Run.get
  match loaded name with
  | some (.value m) => pure m
  | _ => do
    setEntry name (.value F.yes)
    pure F.yes

/-- **`require`**, called at a position. -/
def require (F : Files μ) : ℕ → Bytes → Bytes → Run (Loaded μ) Raised μ
  | 0, _, _ => Run.timeout
  | fuel + 1, pos, name => do
    let loaded ← Run.get
    match loaded name with
    | some (.value m) => pure m
    | some .sentinel => Run.throw (.text (loopText pos name))
    | none =>
      match F.find name with
      | none => Run.throw (.text (notFoundText F pos name))
      | some file =>
        match file.invalid with
        | some message => Run.throw (.text (invalidText name file.filename message))
        | none => do
          setEntry name .sentinel
          runSteps (require F fuel) name file.steps
          finish F name file.result

section Cases

variable {F : Files μ} {loaded : Loaded μ} {name : Bytes} (fuel : ℕ) (pos : Bytes)

theorem require_value {m : μ} (h : loaded name = some (.value m)) :
    require F (fuel + 1) pos name loaded = .ok m loaded := by
  rw [require, Run.get_bind, h]
  rfl

theorem require_sentinel (h : loaded name = some .sentinel) :
    require F (fuel + 1) pos name loaded = .error (.text (loopText pos name)) loaded := by
  rw [require, Run.get_bind, h]
  rfl

theorem require_absent (h : loaded name = none) (hfind : F.find name = none) :
    require F (fuel + 1) pos name loaded = .error (.text (notFoundText F pos name)) loaded := by
  rw [require, Run.get_bind, h]
  simp only [hfind]
  rfl

theorem require_invalid {file : File μ} {message : Bytes} (h : loaded name = none)
    (hfind : F.find name = some file) (hinvalid : file.invalid = some message) :
    require F (fuel + 1) pos name loaded
      = .error (.text (invalidText name file.filename message)) loaded := by
  rw [require, Run.get_bind, h]
  simp only [hfind, hinvalid]
  rfl

theorem require_file {file : File μ} (h : loaded name = none) (hfind : F.find name = some file)
    (hvalid : file.invalid = none) :
    require F (fuel + 1) pos name loaded
      = (runSteps (require F fuel) name file.steps >>= fun _ => finish F name file.result)
          (Function.update loaded name (some .sentinel)) := by
  rw [require, Run.get_bind, h]
  simp only [hfind, hvalid]
  rfl

end Cases

/-! ## Fuel -/

/-- The modules that have not been tried. -/
def Files.untried (F : Files μ) (loaded : Loaded μ) : Finset Bytes :=
  (F.files.map Prod.fst).toFinset.filter (fun name => (loaded name).isNone)

/-- What has an entry has one afterwards. -/
def Keeps (loaded loaded' : Loaded μ) : Prop := ∀ x, loaded x ≠ none → loaded' x ≠ none

section Fuel

variable {F : Files μ} {loaded loaded' : Loaded μ} {name : Bytes} {fuel : ℕ}

theorem Keeps.update (loaded : Loaded μ) (name : Bytes) (e : Entry μ) :
    Keeps loaded (Function.update loaded name (some e)) := by
  intro x hx
  by_cases heq : x = name
  · simp [heq]
  · rwa [Function.update_of_ne heq]

theorem Keeps.trans {loaded'' : Loaded μ} (h : Keeps loaded loaded') (h' : Keeps loaded' loaded'') :
    Keeps loaded loaded'' :=
  fun x hx => h' x (h x hx)

/-- Trying more leaves less. -/
theorem Keeps.untried_le (h : Keeps loaded loaded') :
    (F.untried loaded').card ≤ (F.untried loaded).card := by
  refine Finset.card_le_card fun x hx => ?_
  simp only [Files.untried, Finset.mem_filter, Option.isNone_iff_eq_none] at hx ⊢
  exact ⟨hx.1, by_contra fun hne => h x hne hx.2⟩

theorem untried_update {file : File μ} (hfind : F.find name = some file) (h : loaded name = none)
    (e : Entry μ) :
    (F.untried (Function.update loaded name (some e))).card < (F.untried loaded).card := by
  refine Finset.card_lt_card ((Finset.ssubset_iff_of_subset fun x hx => ?_).mpr ⟨name, ?_, ?_⟩)
  · simp only [Files.untried, Finset.mem_filter, Option.isNone_iff_eq_none] at hx ⊢
    refine ⟨hx.1, ?_⟩
    by_cases heq : x = name
    · rw [heq, h]
    · rw [← hx.2, Function.update_of_ne heq]
  · simp only [Files.untried, Finset.mem_filter, Option.isNone_iff_eq_none, List.mem_toFinset]
    obtain ⟨p, hp, -⟩ := Option.map_eq_some_iff.mp hfind
    have hname : p.1 = name := by simpa using List.find?_some hp
    exact ⟨List.mem_map.mpr ⟨p, List.mem_of_find?_eq_some hp, hname⟩, h⟩
  · simp [Files.untried]

/-- What a file takes away it has not put there. -/
theorem runSteps_keeps {require : Bytes → Bytes → Run (Loaded μ) Raised μ}
    (hreq : ∀ pos other loaded loaded', (require pos other).Leaves loaded loaded' →
      Keeps loaded loaded') {steps : List (Step μ)}
    (h : (runSteps require name steps).Leaves loaded loaded') : Keeps loaded loaded' := by
  induction steps generalizing loaded with
  | nil => exact h.of_ok rfl ▸ fun _ hx => hx
  | cons step steps ih =>
    cases step with
    | raise e => exact h.of_error rfl ▸ fun _ hx => hx
    | register m => exact (Keeps.update loaded name (.value m)).trans (ih h)
    | require pos other =>
      obtain ⟨e, he⟩ | ⟨m, loaded₁, hm, hrest⟩ := Run.leaves_bind.mp h
      · exact hreq pos other loaded loaded' (Or.inr ⟨e, he⟩)
      · exact (hreq pos other loaded loaded₁ (Or.inl ⟨m, hm⟩)).trans (ih hrest)

/-- The end of `ll_require` returns. -/
theorem finish_returns (F : Files μ) (name : Bytes) (result : Option μ) (loaded : Loaded μ) :
    ∃ m loaded', finish F name result loaded = .ok m loaded' ∧ Keeps loaded loaded' := by
  unfold finish
  cases result with
  | some m =>
    exact ⟨m, Function.update loaded name (some (.value m)), by simp [setEntry, Run.bind_apply],
      Keeps.update loaded name _⟩
  | none =>
    rcases hname : loaded name with _ | _ | m
    · exact ⟨F.yes, Function.update loaded name (some (.value F.yes)),
        by simp [setEntry, Run.bind_apply, hname], Keeps.update loaded name _⟩
    · exact ⟨F.yes, Function.update loaded name (some (.value F.yes)),
        by simp [setEntry, Run.bind_apply, hname], Keeps.update loaded name _⟩
    · exact ⟨m, loaded, by simp [Run.bind_apply, hname], fun _ hx => hx⟩

theorem require_keeps {pos : Bytes} (h : (require F fuel pos name).Leaves loaded loaded') :
    Keeps loaded loaded' := by
  induction fuel generalizing loaded loaded' name pos with
  | zero => rcases h with ⟨_, h⟩ | ⟨_, h⟩ <;> cases h
  | succ fuel ih =>
    rcases hname : loaded name with _ | _ | m
    · rcases hfind : F.find name with _ | file
      · exact h.of_error (require_absent fuel pos hname hfind) ▸ fun _ hx => hx
      rcases hvalid : file.invalid with _ | message
      · rw [Run.Leaves, require_file fuel pos hname hfind hvalid] at h
        refine (Keeps.update loaded name .sentinel).trans ?_
        obtain ⟨e, he⟩ | ⟨_, loaded₁, hrun, hfinish⟩ := Run.leaves_bind.mp h
        · exact runSteps_keeps (fun _ _ _ _ => ih) (Or.inr ⟨e, he⟩)
        · obtain ⟨m, loaded₂, hm, hkeeps⟩ := finish_returns F name file.result loaded₁
          rw [hfinish.of_ok hm]
          exact (runSteps_keeps (fun _ _ _ _ => ih) (Or.inl ⟨_, hrun⟩)).trans hkeeps
      · exact h.of_error (require_invalid fuel pos hname hfind hvalid) ▸ fun _ hx => hx
    · exact h.of_error (require_sentinel fuel pos hname) ▸ fun _ hx => hx
    · exact h.of_ok (require_value fuel pos hname) ▸ fun _ hx => hx

/-- **`require` comes to an end**: it starts no file twice. -/
theorem require_ne_timeout (pos : Bytes) (hfuel : (F.untried loaded).card < fuel) :
    require F fuel pos name loaded ≠ .timeout := by
  induction fuel generalizing loaded name pos with
  | zero => exact absurd hfuel (Nat.not_lt_zero _)
  | succ fuel ih =>
    rcases hname : loaded name with _ | _ | m
    · rcases hfind : F.find name with _ | file
      · rw [require_absent fuel pos hname hfind]
        nofun
      rcases hvalid : file.invalid with _ | message
      · rw [require_file fuel pos hname hfind hvalid]
        -- the sentinel stands in the place of the module while its file runs
        have hless := untried_update hfind hname .sentinel
        have hsteps : ∀ (steps : List (Step μ)) (loaded₀ : Loaded μ),
            Keeps (Function.update loaded name (some .sentinel)) loaded₀ →
            runSteps (require F fuel) name steps loaded₀ ≠ .timeout := by
          intro steps
          induction steps with
          | nil => exact fun _ _ => nofun
          | cons step steps ihsteps =>
            intro loaded₀ hkeeps
            cases step with
            | raise e => nofun
            | register m => exact ihsteps _ (hkeeps.trans (Keeps.update loaded₀ name _))
            | require pos other =>
              refine Run.bind_ne_timeout (ih pos ?_) fun m loaded₁ hm =>
                ihsteps loaded₁ (hkeeps.trans (require_keeps (Or.inl ⟨m, hm⟩)))
              have := hkeeps.untried_le (F := F)
              omega
        refine Run.bind_ne_timeout (hsteps _ _ fun _ hx => hx) fun _ loaded₁ _ => ?_
        obtain ⟨m, loaded₂, hm, -⟩ := finish_returns F name file.result loaded₁
        rw [hm]
        nofun
      · rw [require_invalid fuel pos hname hfind hvalid]
        nofun
    · rw [require_sentinel fuel pos hname]
      nofun
    · rw [require_value fuel pos hname]
      nofun

end Fuel

end Modules

end Felt
