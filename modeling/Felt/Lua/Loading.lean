import Felt.Lua.Require
import Mathlib.Logic.Relation

/-!
# Modules that load

A module **loads** if its file does not raise and all it requires loads
(`Loads`). What `require` does with such a module is known whatever was required
before, failures included (`requires_of_loads`). What it does with another
depends on how far one gets: up to the first step that fails, which may require a
module that fails again. `require_of_not_loads` is about both of the ways in which
that chain matters afterwards – what its last error reads like, and whether one of
its files has registered itself.

To load is defined without `package.loaded`, by the files alone, and that makes
it a property a module has once and for all. The state comes in as an invariant:
`Fair` says that what is in `package.loaded` are modules that load, and sentinels
of modules that do not. Every call keeps it as long as no file registers itself
and fails afterwards, and from it follows what each call answers.
-/

namespace Felt

namespace Modules

variable {μ : Type}

/-! ## Modules that load -/

/-- **A module loads**: its file does not raise, and what it requires loads. -/
inductive Loads (F : Files μ) : Bytes → Prop where
  | intro {name : Bytes} {file : File μ} (hfind : F.find name = some file)
      (hvalid : file.invalid = none) (hraise : ∀ e, Step.raise e ∉ file.steps)
      (hrequire : ∀ pos other, Step.require pos other ∈ file.steps → Loads F other) :
      Loads F name

/-- A module needs another. -/
def Needs (F : Files μ) (name other : Bytes) : Prop :=
  ∃ file pos, F.find name = some file ∧ Step.require pos other ∈ file.steps

/-- What a file registers last. -/
def registered : List (Step μ) → Option μ
  | [] => none
  | .register m :: steps => (registered steps).or (some m)
  | .require _ _ :: steps | .raise _ :: steps => registered steps

/-- What a module is once it is loaded. -/
def File.value (F : Files μ) (file : File μ) : μ :=
  (file.result.or (registered file.steps)).getD F.yes

/-- The entry of a module once it is loaded. -/
def Files.entry (F : Files μ) (name : Bytes) : Option (Entry μ) :=
  (F.find name).map (fun file => .value (file.value F))

/-- What a module needs is not in the way: no part of it has been started. -/
def Ready (F : Files μ) (loaded : Loaded μ) (name : Bytes) : Prop :=
  ∀ x, Relation.ReflTransGen (Needs F) name x → loaded x = none ∨ loaded x = F.entry x

/-- More modules are loaded, other than one. -/
def ExtendsBut (F : Files μ) (name : Bytes) (loaded loaded' : Loaded μ) : Prop :=
  ∀ x, x ≠ name → loaded' x = loaded x ∨
    (Loads F x ∧ loaded x = none ∧ loaded' x = F.entry x)

/-- **More modules are loaded.** -/
def Extends (F : Files μ) (loaded loaded' : Loaded μ) : Prop :=
  ∀ x, loaded' x = loaded x ∨ (Loads F x ∧ loaded x = none ∧ loaded' x = F.entry x)

section Loads

variable {F : Files μ} {loaded loaded' loaded'' : Loaded μ} {name other : Bytes}

theorem Loads.find_ne_none (h : Loads F name) : F.find name ≠ none := by
  cases h with
  | intro hfind => simp [hfind]

theorem Loads.of_needs (h : Loads F name) (hneeds : Needs F name other) : Loads F other := by
  cases h with
  | intro hfind hvalid hraise hrequire =>
    obtain ⟨file, pos, hfile, hmem⟩ := hneeds
    obtain rfl := Option.some.inj (hfind.symm.trans hfile)
    exact hrequire pos other hmem

theorem Loads.of_reaches (h : Loads F name) (hreach : Relation.ReflTransGen (Needs F) name other) :
    Loads F other := by
  induction hreach with
  | refl => exact h
  | tail _ hneeds ih => exact ih.of_needs hneeds

/-- A module that loads does not need itself. -/
theorem Loads.not_cycle (h : Loads F name) : ¬ Relation.TransGen (Needs F) name name := by
  induction h with
  | @intro name file hfind hvalid hraise hrequire ih =>
    intro hcycle
    obtain ⟨other, hneeds, hback⟩ := Relation.TransGen.head'_iff.mp hcycle
    obtain ⟨file', pos, hfile, hmem⟩ := id hneeds
    obtain rfl := Option.some.inj (hfind.symm.trans hfile)
    exact ih pos other hmem (Relation.TransGen.tail' hback hneeds)

theorem Extends.refl (F : Files μ) (loaded : Loaded μ) : Extends F loaded loaded :=
  fun _ => Or.inl rfl

theorem Extends.but (h : Extends F loaded loaded') : ExtendsBut F name loaded loaded' :=
  fun x _ => h x

theorem ExtendsBut.trans (h : ExtendsBut F name loaded loaded')
    (h' : ExtendsBut F name loaded' loaded'') : ExtendsBut F name loaded loaded'' := by
  intro x hx
  rcases h x hx with heq | ⟨hloads, hnone, hentry⟩
  · rcases h' x hx with heq' | ⟨hloads, hnone, hentry⟩
    · exact Or.inl (heq'.trans heq)
    · exact Or.inr ⟨hloads, heq ▸ hnone, hentry⟩
  · rcases h' x hx with heq' | ⟨-, -, hentry'⟩
    · exact Or.inr ⟨hloads, hnone, heq'.trans hentry⟩
    · exact Or.inr ⟨hloads, hnone, hentry'⟩

/-- What has an entry keeps it. -/
theorem Extends.keeps (h : Extends F loaded loaded') (hne : loaded name ≠ none) :
    loaded' name = loaded name :=
  (h name).resolve_right fun hx => hne hx.2.1

theorem ExtendsBut.ready (h : ExtendsBut F name loaded loaded') (hready : Ready F loaded other)
    (hfar : ¬ Relation.ReflTransGen (Needs F) other name) : Ready F loaded' other := by
  intro x hx
  rcases h x (fun heq => hfar (heq ▸ hx)) with heq | ⟨-, -, hentry⟩
  · rw [heq]
    exact hready x hx
  · exact Or.inr hentry

theorem ExtendsBut.update (F : Files μ) (name : Bytes) (loaded : Loaded μ) (e : Entry μ) :
    ExtendsBut F name loaded (Function.update loaded name (some e)) :=
  fun _ hx => Or.inl (Function.update_of_ne hx _ _)

theorem Extends.untried_le (h : Extends F loaded loaded') :
    (F.untried loaded').card ≤ (F.untried loaded).card :=
  Keeps.untried_le fun _ hx => h.keeps hx ▸ hx

end Loads

/-! ## Requiring what loads -/

section Require

variable {F : Files μ} {name : Bytes}

/-- **`require` returns a module that loads**, and what it needs is loaded as
well. -/
def Requires (F : Files μ) (fuel : ℕ) (other : Bytes) : Prop :=
  ∀ pos loaded, Ready F loaded other → (F.untried loaded).card < fuel →
    ∃ m loaded', require F fuel pos other loaded = .ok m loaded' ∧ Extends F loaded loaded' ∧
      F.entry other = some (.value m)

/-- Steps that do not fail are run to their end. -/
theorem runSteps_of_loads {fuel : ℕ} {name : Bytes} {steps : List (Step μ)}
    (hrequires : ∀ pos other, Step.require pos other ∈ steps → Requires F fuel other)
    (hraise : ∀ e, Step.raise e ∉ steps)
    (hfar : ∀ pos other, Step.require pos other ∈ steps →
      ¬ Relation.ReflTransGen (Needs F) other name)
    {loaded : Loaded μ} (hne : loaded name ≠ none)
    (hready : ∀ pos other, Step.require pos other ∈ steps → Ready F loaded other)
    (hfuel : (F.untried loaded).card < fuel) :
    ∃ loaded', runSteps (require F fuel) name steps loaded = .ok () loaded' ∧
      ExtendsBut F name loaded loaded' ∧
      loaded' name = ((registered steps).map Entry.value).or (loaded name) := by
  induction steps generalizing loaded with
  | nil => exact ⟨loaded, rfl, fun _ _ => Or.inl rfl, by simp [registered]⟩
  | cons step steps ih =>
    have ih := @ih (fun p o h => hrequires p o (List.mem_cons_of_mem _ h))
      (fun e h => hraise e (List.mem_cons_of_mem _ h))
      (fun p o h => hfar p o (List.mem_cons_of_mem _ h))
    cases step with
    | raise e => exact absurd List.mem_cons_self (hraise e)
    | register m =>
      obtain ⟨loaded', hrun, hext, hname⟩ := @ih (Function.update loaded name (some (.value m)))
        (by simp)
        (fun p o h => (ExtendsBut.update F name loaded _).ready
          (hready p o (List.mem_cons_of_mem _ h)) (hfar p o (List.mem_cons_of_mem _ h)))
        (lt_of_le_of_lt (Keeps.update loaded name _).untried_le hfuel)
      refine ⟨loaded', hrun, (ExtendsBut.update F name loaded _).trans hext, ?_⟩
      rw [hname, registered]
      cases registered steps <;> simp
    | require pos other =>
      obtain ⟨m, loaded₁, hreq, hext₁, -⟩ := hrequires pos other List.mem_cons_self pos loaded
        (hready pos other List.mem_cons_self) hfuel
      have hkeep := hext₁.keeps hne
      obtain ⟨loaded', hrun, hext, hname⟩ := @ih loaded₁ (hkeep ▸ hne)
        (fun p o h => hext₁.but.ready (hready p o (List.mem_cons_of_mem _ h))
          (hfar p o (List.mem_cons_of_mem _ h)))
        (lt_of_le_of_lt hext₁.untried_le hfuel)
      refine ⟨loaded', ?_, hext₁.but.trans hext, ?_⟩
      · rw [runSteps, Run.bind_of_ok hreq, hrun]
      · rw [hname, hkeep, registered]

/-- The file has been run; what it comes to is put in its place. -/
theorem finish_apply (F : Files μ) (file : File μ) {loaded : Loaded μ}
    (h : loaded name = ((registered file.steps).map Entry.value).or (some .sentinel)) :
    finish F name file.result loaded
      = .ok (file.value F) (Function.update loaded name (some (.value (file.value F)))) := by
  unfold finish File.value
  cases hresult : file.result with
  | some m => simp [setEntry, Run.bind_apply]
  | none =>
    cases hreg : registered file.steps with
    | none =>
      have hsentinel : loaded name = some .sentinel := by rw [h, hreg]; rfl
      simp [setEntry, Run.bind_apply, hsentinel]
    | some m =>
      have hvalue : loaded name = some (.value m) := by rw [h, hreg]; rfl
      have hsame : Function.update loaded name (some (.value m)) = loaded := by
        rw [← hvalue, Function.update_eq_self]
      simp [Run.bind_apply, hvalue, hsame]

/-- **What `require` does with a module that loads.** -/
theorem requires_of_loads (h : Loads F name) (fuel : ℕ) : Requires F fuel name := by
  induction fuel generalizing name with
  | zero => exact fun _ _ _ hfuel => absurd hfuel (Nat.not_lt_zero _)
  | succ fuel ih =>
    intro pos loaded hready hfuel
    cases id h with
    | @intro _ file hfind hvalid hraise hrequire =>
    have hentry : F.entry name = some (.value (file.value F)) := by rw [Files.entry, hfind]; rfl
    rcases hready name .refl with hnone | hvalue
    · have hfar : ∀ pos other, Step.require pos other ∈ file.steps →
          ¬ Relation.ReflTransGen (Needs F) other name := fun p o hmem hback =>
        h.not_cycle (.head' ⟨file, p, hfind, hmem⟩ hback)
      have hext₀ := ExtendsBut.update F name loaded .sentinel
      have hstarted : Function.update loaded name (some .sentinel) name
          ≠ (none : Option (Entry μ)) := by simp
      obtain ⟨loaded₁, hrun, hext, hname⟩ := runSteps_of_loads
        (fun p o hmem => ih (hrequire p o hmem)) hraise hfar hstarted
        (fun p o hmem => hext₀.ready
          (fun x hx => hready x (.head ⟨file, p, hfind, hmem⟩ hx)) (hfar p o hmem))
        (by have := untried_update hfind hnone .sentinel; omega)
      have hfinish := finish_apply F file (hname.trans (by simp))
      refine ⟨file.value F, Function.update loaded₁ name (some (.value (file.value F))), ?_,
        fun x => ?_, hentry⟩
      · rw [require_file fuel pos hnone hfind hvalid, Run.bind_of_ok hrun, hfinish]
      · by_cases hx : x = name
        · subst hx
          exact Or.inr ⟨h, hnone, by rw [hentry, Function.update_self]⟩
        · rw [Function.update_of_ne hx]
          simpa [Function.update_of_ne hx] using hext x hx
    · exact ⟨file.value F, loaded, require_value fuel pos (hvalue.trans hentry),
        .refl F loaded, hentry⟩

end Require

/-! ## Modules that do not load -/

/-- A step that does not fail. -/
def Fine (F : Files μ) : Step μ → Prop
  | .require _ other => Loads F other
  | .register _ => True
  | .raise _ => False

open Classical in
/-- The steps before the first that fails. -/
noncomputable def passed (F : Files μ) (file : File μ) : List (Step μ) :=
  file.steps.takeWhile (fun step => Fine F step)

open Classical in
/-- **The first step that fails.** -/
noncomputable def failing (F : Files μ) (file : File μ) : Option (Step μ) :=
  (file.steps.dropWhile (fun step => Fine F step)).head?

/-- **A file has registered itself when it fails**: the one of a module that
does not load, or of one that is required where it fails. -/
inductive HalfBuilt (F : Files μ) : Bytes → Prop where
  /-- It is in its place when a step fails. -/
  | here {name : Bytes} {file : File μ} {step : Step μ} {m : μ} (hfind : F.find name = some file)
      (hvalid : file.invalid = none) (hfails : failing F file = some step)
      (hregister : Step.register m ∈ passed F file) : HalfBuilt F name
  /-- The step requires a module of this kind. -/
  | onward {name pos other : Bytes} {file : File μ} (hfind : F.find name = some file)
      (hvalid : file.invalid = none) (hfails : failing F file = some (.require pos other))
      (hother : HalfBuilt F other) : HalfBuilt F name

/-- **The failure reads like the absence of a file**: the first step that fails
leads along files that have not been started to a module that is not there, or
to an error that reads like that. -/
inductive LooksAbsent (F : Files μ) : Loaded μ → Bytes → Bytes → Prop where
  /-- The module is not there. -/
  | absent {loaded : Loaded μ} {pos name : Bytes} (hnone : loaded name = none)
      (hfind : F.find name = none) : LooksAbsent F loaded pos name
  /-- It has been started, and has a name that reads like that. -/
  | started {loaded : Loaded μ} {pos name : Bytes} (hstarted : loaded name = some .sentinel)
      (htext : matchesNoFile (loopText pos name) = true) : LooksAbsent F loaded pos name
  /-- What the compiler says reads like that. -/
  | invalid {loaded : Loaded μ} {pos name message : Bytes} {file : File μ}
      (hnone : loaded name = none) (hfind : F.find name = some file)
      (hinvalid : file.invalid = some message)
      (htext : matchesNoFile (invalidText name file.filename message) = true) :
      LooksAbsent F loaded pos name
  /-- What the file raises reads like that. -/
  | raises {loaded : Loaded μ} {pos name text : Bytes} {file : File μ}
      (hnone : loaded name = none) (hfind : F.find name = some file)
      (hvalid : file.invalid = none) (hfails : failing F file = some (.raise (.text text)))
      (htext : matchesNoFile text = true) : LooksAbsent F loaded pos name
  /-- It is so with a module that the file requires. -/
  | requires {loaded : Loaded μ} {pos name pos' other : Bytes} {file : File μ}
      (hnone : loaded name = none) (hfind : F.find name = some file)
      (hvalid : file.invalid = none) (hfails : failing F file = some (.require pos' other))
      (hother : LooksAbsent F (Function.update loaded name (some .sentinel)) pos' other) :
      LooksAbsent F loaded pos name

/-- **What `package.loaded` looks like if no file is half built**: there are the
modules that load, and the sentinels of those that do not. -/
def Fair (F : Files μ) (loaded : Loaded μ) : Prop :=
  ∀ x, loaded x = none ∨ (Loads F x ∧ loaded x = F.entry x) ∨
    (¬ Loads F x ∧ F.find x ≠ none ∧ loaded x = some .sentinel)

section NotLoads

variable {F : Files μ} {loaded loaded' : Loaded μ} {name : Bytes} {file : File μ}

theorem fine_of_mem_passed {step : Step μ} (h : step ∈ passed F file) : Fine F step := by
  classical
  simpa using List.mem_takeWhile_imp h

theorem not_fine_of_failing {step : Step μ} (h : failing F file = some step) : ¬ Fine F step := by
  classical
  have hd := List.head?_dropWhile_not (fun step => decide (Fine F step)) file.steps
  unfold failing at h
  rw [h] at hd
  simpa using hd

theorem failing_of_cons {step : Step μ} {rest : List (Step μ)} (hsteps : file.steps = step :: rest)
    (h : ¬ Fine F step) : failing F file = some step := by
  classical
  rw [failing, hsteps, List.dropWhile_cons_of_neg (by simpa using h)]
  rfl

/-- The steps up to the first that fails. -/
theorem exists_steps_eq {step : Step μ} (h : failing F file = some step) :
    ∃ rest, file.steps = passed F file ++ step :: rest := by
  classical
  unfold failing at h
  obtain ⟨rest, hrest⟩ := List.head?_eq_some_iff.mp h
  exact ⟨rest, by rw [passed, ← hrest, List.takeWhile_append_dropWhile]⟩

/-- A file of which no step fails is that of a module that loads. -/
theorem loads_of_failing_eq_none (hfind : F.find name = some file) (hvalid : file.invalid = none)
    (h : failing F file = none) : Loads F name := by
  classical
  have hdrop : file.steps.dropWhile (fun step => Fine F step) = [] := List.head?_eq_none_iff.mp h
  have hfine : ∀ step ∈ file.steps, Fine F step := by
    simpa using List.dropWhile_eq_nil_iff.mp hdrop
  exact .intro hfind hvalid (fun e he => hfine _ he) (fun pos other hr => hfine _ hr)

/-- What loads is not started without being loaded. -/
theorem Fair.ready (h : Fair F loaded) (hloads : Loads F name) : Ready F loaded name := by
  intro x hx
  rcases h x with hnone | ⟨-, hentry⟩ | ⟨hnot, -⟩
  · exact Or.inl hnone
  · exact Or.inr hentry
  · exact absurd (hloads.of_reaches hx) hnot

/-- A module that does not load is started. -/
theorem Fair.start (h : Fair F loaded) (hnot : ¬ Loads F name) (hfind : F.find name ≠ none) :
    Fair F (Function.update loaded name (some .sentinel)) := by
  intro x
  by_cases hx : x = name
  · subst hx
    exact Or.inr (Or.inr ⟨hnot, hfind, Function.update_self ..⟩)
  · rw [Function.update_of_ne hx]
    exact h x

theorem Fair.erase (h : Fair F loaded) : Fair F (Function.update loaded name none) := by
  intro x
  by_cases hx : x = name
  · exact Or.inl (hx ▸ Function.update_self ..)
  · rw [Function.update_of_ne hx]
    exact h x

theorem Fair.extends (h : Fair F loaded) (hext : Extends F loaded loaded') : Fair F loaded' := by
  intro x
  rcases hext x with heq | ⟨hloads, -, hentry⟩
  · rw [heq]
    exact h x
  · exact Or.inr (Or.inl ⟨hloads, hentry⟩)

/-- Whether a failure reads like an absence does not depend on what is loaded. -/
theorem LooksAbsent.congr {pos : Bytes} (hlooks : LooksAbsent F loaded pos name)
    (hnot : ¬ Loads F name) (h : ∀ x, ¬ Loads F x → loaded' x = loaded x) :
    LooksAbsent F loaded' pos name := by
  induction hlooks generalizing loaded' with
  | absent hnone hfind => exact .absent ((h _ hnot).trans hnone) hfind
  | started hstarted htext => exact .started ((h _ hnot).trans hstarted) htext
  | invalid hnone hfind hinvalid htext =>
    exact .invalid ((h _ hnot).trans hnone) hfind hinvalid htext
  | raises hnone hfind hvalid hfails htext =>
    exact .raises ((h _ hnot).trans hnone) hfind hvalid hfails htext
  | @requires loaded pos name pos' other file hnone hfind hvalid hfails hother ih =>
    refine .requires ((h _ hnot).trans hnone) hfind hvalid hfails
      (ih (not_fine_of_failing hfails) fun x hx => ?_)
    by_cases heq : x = name
    · rw [heq, Function.update_self, Function.update_self]
    · rw [Function.update_of_ne heq, Function.update_of_ne heq, h x hx]

end NotLoads

/-! ## Requiring what does not load -/

section Fails

variable {F : Files μ} {fuel : ℕ} {loaded : Loaded μ} {name : Bytes} {file : File μ}

/-- Steps that return are behind one. -/
theorem runSteps_append {require : Bytes → Bytes → Run (Loaded μ) Raised μ}
    {before : List (Step μ)} {loaded' : Loaded μ}
    (h : runSteps require name before loaded = .ok () loaded') (rest : List (Step μ)) :
    runSteps require name (before ++ rest) loaded = runSteps require name rest loaded' := by
  induction before generalizing loaded with
  | nil =>
    obtain ⟨-, rfl⟩ := Outcome.ok.inj h
    rfl
  | cons step before ih =>
    cases step with
    | raise e => exact absurd h (by simp [runSteps])
    | register m => exact ih h
    | require pos other =>
      obtain ⟨m, loaded₁, hreq, hrest⟩ := Run.bind_eq_ok.mp h
      rw [List.cons_append, runSteps, Run.bind_of_ok hreq]
      exact ih hrest

section LooksAbsent

variable {pos : Bytes}

theorem looksAbsent_started (h : loaded name = some .sentinel) :
    LooksAbsent F loaded pos name ↔ matchesNoFile (loopText pos name) = true := by
  refine ⟨fun hlooks => ?_, .started h⟩
  cases hlooks with
  | started _ htext => exact htext
  | absent hnone | invalid hnone | raises hnone | requires hnone => simp [hnone] at h

theorem looksAbsent_invalid (hnone : loaded name = none) (hfind : F.find name = some file)
    {message : Bytes} (hinvalid : file.invalid = some message) :
    LooksAbsent F loaded pos name
      ↔ matchesNoFile (invalidText name file.filename message) = true := by
  refine ⟨fun hlooks => ?_, .invalid hnone hfind hinvalid⟩
  cases hlooks with
  | started hstarted => simp [hnone] at hstarted
  | absent _ hfind' => simp [hfind] at hfind'
  | invalid _ hfind' hinvalid' htext =>
    obtain rfl := Option.some.inj (hfind.symm.trans hfind')
    obtain rfl := Option.some.inj (hinvalid.symm.trans hinvalid')
    exact htext
  | raises _ hfind' hvalid =>
    obtain rfl := Option.some.inj (hfind.symm.trans hfind')
    simp [hinvalid] at hvalid
  | requires _ hfind' hvalid =>
    obtain rfl := Option.some.inj (hfind.symm.trans hfind')
    simp [hinvalid] at hvalid

variable (hnone : loaded name = none) (hfind : F.find name = some file)
  (hvalid : file.invalid = none)

include hnone hfind hvalid

theorem looksAbsent_raises {e : Raised} (hfails : failing F file = some (.raise e)) :
    LooksAbsent F loaded pos name ↔ ∃ text, e = .text text ∧ matchesNoFile text = true := by
  refine ⟨fun hlooks => ?_, ?_⟩
  · cases hlooks with
    | started hstarted => simp [hnone] at hstarted
    | absent _ hfind' => simp [hfind] at hfind'
    | invalid _ hfind' hinvalid =>
      obtain rfl := Option.some.inj (hfind.symm.trans hfind')
      simp [hvalid] at hinvalid
    | raises _ hfind' _ hfails' htext =>
      obtain rfl := Option.some.inj (hfind.symm.trans hfind')
      have hstep := Option.some.inj (hfails.symm.trans hfails')
      exact ⟨_, Step.raise.inj hstep, htext⟩
    | requires _ hfind' _ hfails' =>
      obtain rfl := Option.some.inj (hfind.symm.trans hfind')
      simp [hfails] at hfails'
  · rintro ⟨text, rfl, htext⟩
    exact .raises hnone hfind hvalid hfails htext

theorem looksAbsent_requires {pos' other : Bytes}
    (hfails : failing F file = some (.require pos' other)) :
    LooksAbsent F loaded pos name
      ↔ LooksAbsent F (Function.update loaded name (some .sentinel)) pos' other := by
  refine ⟨fun hlooks => ?_, .requires hnone hfind hvalid hfails⟩
  cases hlooks with
  | started hstarted => simp [hnone] at hstarted
  | absent _ hfind' => simp [hfind] at hfind'
  | invalid _ hfind' hinvalid =>
    obtain rfl := Option.some.inj (hfind.symm.trans hfind')
    simp [hvalid] at hinvalid
  | raises _ hfind' _ hfails' =>
    obtain rfl := Option.some.inj (hfind.symm.trans hfind')
    simp [hfails] at hfails'
  | requires _ hfind' _ hfails' hother =>
    obtain rfl := Option.some.inj (hfind.symm.trans hfind')
    obtain ⟨rfl, rfl⟩ := Step.require.inj (Option.some.inj (hfails.symm.trans hfails'))
    exact hother

end LooksAbsent

/-- A file that does not register itself is run up to the first step that
fails; all that has changed is that more is loaded. -/
theorem runSteps_passed (hfair : Fair F loaded) (hnot : ¬ Loads F name)
    (hstarted : loaded name = some .sentinel) (hfuel : (F.untried loaded).card < fuel)
    (hregister : ∀ m, Step.register m ∉ passed F file) :
    ∃ loaded', runSteps (require F fuel) name (passed F file) loaded = .ok () loaded' ∧
      Extends F loaded loaded' := by
  have hloads : ∀ pos other, Step.require pos other ∈ passed F file → Loads F other :=
    fun _ _ h => fine_of_mem_passed h
  have hne : loaded name ≠ none := by simp [hstarted]
  obtain ⟨loaded', hrun, hext, hname⟩ := runSteps_of_loads
    (fun p o h => requires_of_loads (hloads p o h) fuel) (fun e h => fine_of_mem_passed h)
    (fun p o h hback => hnot ((hloads p o h).of_reaches hback)) hne
    (fun p o h => hfair.ready (hloads p o h)) hfuel
  have hnone : ∀ steps : List (Step μ), (∀ m, Step.register m ∉ steps) →
      registered steps = none := by
    intro steps
    induction steps with
    | nil => exact fun _ => rfl
    | cons step steps ih =>
      intro h
      have hrest := ih fun m hm => h m (List.mem_cons_of_mem _ hm)
      cases step with
      | register m => exact absurd List.mem_cons_self (h m)
      | require pos other => exact hrest
      | raise e => exact hrest
  rw [hnone _ hregister, Option.map_none, Option.none_or] at hname
  refine ⟨loaded', hrun, fun x => ?_⟩
  by_cases hx : x = name
  · exact Or.inl (hx ▸ hname)
  · exact hext x hx

/-- **What `require` does with a module that does not load**: it raises, and if
no file is left half built, `package.loaded` is as it should be. The error reads
like an absence if the failure does. -/
theorem require_of_not_loads (hfair : Fair F loaded) (hnot : ¬ Loads F name)
    (hbuilt : ¬ HalfBuilt F name) (pos : Bytes) (hfuel : (F.untried loaded).card < fuel) :
    ∃ e loaded', require F fuel pos name loaded = .error e loaded' ∧ Fair F loaded' ∧
      ((∃ text, e = .text text ∧ matchesNoFile text = true) ↔ LooksAbsent F loaded pos name) := by
  induction fuel generalizing loaded name pos with
  | zero => exact absurd hfuel (Nat.not_lt_zero _)
  | succ fuel ih =>
    have hsingle : ∀ text, (∃ text', Raised.text text = .text text' ∧ matchesNoFile text' = true)
        ↔ matchesNoFile text = true := fun text => by simp
    rcases hfair name with hnone | ⟨hloads, -⟩ | ⟨-, -, hsentinel⟩
    · rcases hfind : F.find name with _ | file
      · exact ⟨_, loaded, require_absent fuel pos hnone hfind, hfair, (hsingle _).trans
          (iff_of_true (matchesNoFile_notFoundText F pos name) (.absent hnone hfind))⟩
      rcases hinvalid : file.invalid with _ | message
      · -- the file is run up to the step that fails
        obtain ⟨step, hfails⟩ : ∃ step, failing F file = some step :=
          Option.ne_none_iff_exists'.mp fun h =>
            hnot (loads_of_failing_eq_none hfind hinvalid h)
        have hfair₀ := hfair.start hnot (by simp [hfind])
        have hfuel₀ : (F.untried (Function.update loaded name (some .sentinel))).card < fuel := by
          have := untried_update hfind hnone .sentinel
          omega
        have hregister : ∀ m, Step.register m ∉ passed F file := fun m hm =>
          hbuilt (.here hfind hinvalid hfails hm)
        obtain ⟨loaded₁, hrun, hext⟩ := runSteps_passed hfair₀ hnot (by simp) hfuel₀ hregister
        obtain ⟨rest, hsteps⟩ := exists_steps_eq hfails
        have hnotfine := not_fine_of_failing hfails
        have hstart := require_file fuel pos hnone hfind hinvalid
        cases step with
        | register m => exact absurd trivial hnotfine
        | raise e =>
          refine ⟨e, loaded₁, ?_, hfair₀.extends hext,
            (looksAbsent_raises hnone hfind hinvalid hfails).symm⟩
          rw [hstart, Run.bind_of_error]
          rw [hsteps, runSteps_append hrun]
          rfl
        | require pos' other =>
          obtain ⟨e, loaded', hreq, hfair', htext⟩ := ih (hfair₀.extends hext) hnotfine
            (fun h => hbuilt (.onward hfind hinvalid hfails h)) pos'
            (lt_of_le_of_lt hext.untried_le hfuel₀)
          have hsame : ∀ x, ¬ Loads F x →
              loaded₁ x = Function.update loaded name (some .sentinel) x :=
            fun x hx => (hext x).resolve_right fun h => hx h.1
          refine ⟨e, loaded', ?_, hfair', htext.trans ⟨fun h => ?_, fun h => ?_⟩⟩
          · rw [hstart, Run.bind_of_error]
            rw [hsteps, runSteps_append hrun, runSteps, Run.bind_of_error hreq]
          · exact (looksAbsent_requires hnone hfind hinvalid hfails).mpr
              (h.congr hnotfine fun x hx => (hsame x hx).symm)
          · exact ((looksAbsent_requires hnone hfind hinvalid hfails).mp h).congr hnotfine hsame
      · exact ⟨_, loaded, require_invalid fuel pos hnone hfind hinvalid, hfair,
          (hsingle _).trans (looksAbsent_invalid hnone hfind hinvalid).symm⟩
    · exact absurd hloads hnot
    · exact ⟨_, loaded, require_sentinel fuel pos hsentinel, hfair,
        (hsingle _).trans (looksAbsent_started hsentinel).symm⟩

end Fails

end Modules

end Felt
