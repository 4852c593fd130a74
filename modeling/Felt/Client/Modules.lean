import Felt.Lua.Loading

/-!
# `srequire`

`srequire` is to answer `false` for a module that is not there and to raise for
one that does not load. It tells them apart by the text of the error, in which
`require` says where it has looked: `no file` on a line of its own. That text is
also there when a module needs another that is not there. And as a module that
has been started is not tried again, the answer depends on what was required
before.

A call is answered as it should be exactly when the failure of a module that is
there does not read like an absence (`srequire_right_iff`). That is so in every
run in which no file is left half built: what is left in `package.loaded` by a
file that registers itself and fails is answered as if it had been loaded.

The condition is stated by the state before the call, and by what the files are:
there is a file, the module does not load, and the step at which it fails leads
to something that is absent. It is not about the text of the error, which is what
the source looks at – that the text has `no file` in it in these cases and in no
others is part of the proof.
-/

namespace Felt

namespace Modules

variable {μ : Type}

/-- What `srequire` answers. -/
inductive Answer (μ : Type) where
  /-- `false`. -/
  | no
  /-- The module. -/
  | module (m : μ)
  /-- Nothing: the module was loaded at the second attempt. -/
  | nothing
  deriving DecidableEq

/-- Only so many files can be running at a time. -/
def Files.depth (F : Files μ) : ℕ := F.files.length + 1

/-- **`srequire`**; the second attempt is made at a position in it. An error that
is no string has no `match`, and looking for it raises. -/
def srequire (F : Files μ) (pos name : Bytes) : Run (Loaded μ) Raised (Answer μ) :=
  fun loaded =>
    match require F F.depth [] name loaded with
    | .ok m loaded' => .ok (.module m) loaded'
    | .error (.text err) loaded' =>
      if matchesNoFile err then .ok .no loaded'
      else
        match require F F.depth pos name (Function.update loaded' name none) with
        | .ok _ loaded'' => .ok .nothing loaded''
        | .error e loaded'' => .error e loaded''
        | .timeout => .timeout
    | .error .other loaded' => .error .other loaded'
    | .timeout => .timeout

/-- What `__unpack` raises when there is no class in an ancestry. -/
def noDefinedType (ancestry : List Bytes) : Bytes :=
  bytes "No defined type found attempting to deserialize object of type " ++ ancestry.headD []
    ++ bytes " (" ++ (bytes ", ").intercalate ancestry ++ bytes ")"

/-- The loop of `__unpack`. -/
def firstDefined (F : Files μ) (pos : Bytes) (ancestry : List Bytes) :
    List Bytes → Run (Loaded μ) Raised Bytes
  | [] => Run.throw (.text (noDefinedType ancestry))
  | type :: types => do
    match ← srequire F pos type with
    | .module _ => pure type
    | .no | .nothing => firstDefined F pos ancestry types

/-- **The class an object is built as** by `__unpack`: the first of its ancestry
that `srequire` finds. -/
def definedType (F : Files μ) (pos : Bytes) (ancestry : List Bytes) :
    Run (Loaded μ) Raised Bytes :=
  firstDefined F pos ancestry ancestry

/-- **The calls that have been made**, and what they have left. -/
inductive Called (F : Files μ) (pos : Bytes) : List Bytes → Loaded μ → Prop where
  /-- None has been made. -/
  | nil : Called F pos [] (fun _ => none)
  /-- Another is made. -/
  | call {names : List Bytes} {name : Bytes} {loaded loaded' : Loaded μ}
      (h : Called F pos names loaded) (hleaves : (srequire F pos name).Leaves loaded loaded') :
      Called F pos (names ++ [name]) loaded'

/-- **The right answer**: `false` if there is no file, the module if it loads, and
an error if there is a file and it does not. -/
structure Right (F : Files μ) (name : Bytes) (out : Outcome (Loaded μ) Raised (Answer μ)) :
    Prop where
  /-- There is no file. -/
  absent : F.find name = none → ∃ loaded, out = .ok .no loaded
  /-- The module loads. -/
  loads : ∀ file, F.find name = some file → Loads F name →
    ∃ loaded, out = .ok (.module (file.value F)) loaded
  /-- It does not. -/
  broken : F.find name ≠ none → ¬ Loads F name → ∃ e loaded, out = .error e loaded

/-- The same kind of answer. -/
def SameKind : Outcome (Loaded μ) Raised (Answer μ) → Outcome (Loaded μ) Raised (Answer μ) → Prop
  | .ok a _, .ok a' _ => a = a'
  | .error _ _, .error _ _ => True
  | _, _ => False

section Right

variable {F : Files μ} {pos name : Bytes} {loaded loaded' : Loaded μ}

theorem Right.sameKind {out out' : Outcome (Loaded μ) Raised (Answer μ)} (h : Right F name out)
    (h' : Right F name out') : SameKind out out' := by
  rcases hfind : F.find name with _ | file
  · obtain ⟨_, rfl⟩ := h.absent hfind
    obtain ⟨_, rfl⟩ := h'.absent hfind
    rfl
  · by_cases hloads : Loads F name
    · obtain ⟨_, rfl⟩ := h.loads file hfind hloads
      obtain ⟨_, rfl⟩ := h'.loads file hfind hloads
      rfl
    · obtain ⟨_, _, rfl⟩ := h.broken (by simp [hfind]) hloads
      obtain ⟨_, _, rfl⟩ := h'.broken (by simp [hfind]) hloads
      trivial

/-- `false` is right only where there is no file. -/
theorem Right.find_eq_none (h : Right F name (.ok .no loaded)) : F.find name = none := by
  by_contra hfind
  by_cases hloads : Loads F name
  · obtain ⟨file, hfile⟩ := Option.ne_none_iff_exists'.mp hfind
    obtain ⟨_, heq⟩ := h.loads file hfile hloads
    simp at heq
  · obtain ⟨_, _, heq⟩ := h.broken hfind hloads
    simp at heq

theorem untried_lt_depth (F : Files μ) (loaded : Loaded μ) : (F.untried loaded).card < F.depth := by
  have hle : (F.untried loaded).card ≤ F.files.length :=
    (Finset.card_filter_le _ _).trans ((List.toFinset_card_le _).trans_eq (List.length_map _))
  exact Nat.lt_succ_of_le hle

/-- **A call comes to an end**, whatever is left in `package.loaded`. -/
theorem srequire_ne_timeout (F : Files μ) (pos name : Bytes) (loaded : Loaded μ) :
    srequire F pos name loaded ≠ .timeout := by
  have hends : ∀ pos loaded, require F F.depth pos name loaded ≠ .timeout := fun pos loaded =>
    require_ne_timeout pos (untried_lt_depth F loaded)
  unfold srequire
  split
  · nofun
  · split
    · nofun
    · split
      · nofun
      · nofun
      · next h => exact absurd h (hends _ _)
  · nofun
  · next h => exact absurd h (hends _ _)

/-! ## A call -/

/-- There is no file. -/
theorem srequire_absent (hfair : Fair F loaded) (hfind : F.find name = none) :
    srequire F pos name loaded = .ok .no loaded := by
  have hnone : loaded name = none := by
    rcases hfair name with hnone | ⟨hloads, -⟩ | ⟨-, hne, -⟩
    · exact hnone
    · exact absurd hfind hloads.find_ne_none
    · exact absurd hfind hne
  simp only [srequire, Files.depth, require_absent F.files.length [] hnone hfind,
    matchesNoFile_notFoundText, if_true]

/-- The module loads. -/
theorem srequire_loads (pos : Bytes) (hfair : Fair F loaded) {file : File μ}
    (hfind : F.find name = some file)
    (hloads : Loads F name) : ∃ loaded', Fair F loaded' ∧
      srequire F pos name loaded = .ok (.module (file.value F)) loaded' := by
  obtain ⟨m, loaded', hreq, hext, hentry⟩ := requires_of_loads hloads F.depth [] loaded
    (hfair.ready hloads) (untried_lt_depth F loaded)
  obtain rfl : file.value F = m := by simpa [Files.entry, hfind] using hentry
  exact ⟨loaded', hfair.extends hext, by simp only [srequire, hreq]⟩

/-- The module does not load: it is taken for absent if the failure reads like
that, and otherwise it is tried again, and fails again. -/
theorem srequire_not_loads (pos : Bytes) (hfair : Fair F loaded) (hnot : ¬ Loads F name)
    (hbuilt : ¬ HalfBuilt F name) : ∃ loaded', Fair F loaded' ∧
      ((LooksAbsent F loaded [] name ∧ srequire F pos name loaded = .ok .no loaded') ∨
        (¬ LooksAbsent F loaded [] name ∧ ∃ e, srequire F pos name loaded = .error e loaded')) := by
  obtain ⟨e, loaded₁, hreq, hfair₁, htext⟩ :=
    require_of_not_loads hfair hnot hbuilt [] (untried_lt_depth F loaded)
  by_cases hlooks : LooksAbsent F loaded [] name
  · obtain ⟨text, rfl, hmatch⟩ := htext.mpr hlooks
    exact ⟨loaded₁, hfair₁, Or.inl ⟨hlooks, by simp only [srequire, hreq, hmatch, if_true]⟩⟩
  · cases e with
    | other => exact ⟨loaded₁, hfair₁, Or.inr ⟨hlooks, .other, by simp only [srequire, hreq]⟩⟩
    | text text =>
      have hmatch : matchesNoFile text = false :=
        Bool.eq_false_iff.mpr fun h => hlooks (htext.mp ⟨text, rfl, h⟩)
      have hfair₀ : Fair F (Function.update loaded₁ name none) := hfair₁.erase
      obtain ⟨e, loaded₂, hagain, hfair₂, -⟩ :=
        require_of_not_loads hfair₀ hnot hbuilt pos (untried_lt_depth F _)
      exact ⟨loaded₂, hfair₂, Or.inr ⟨hlooks, e, by
        simp only [srequire, hreq, hmatch, hagain, Bool.false_eq_true, if_false]⟩⟩

/-- No call leaves anything but what it should, as long as no file is left half
built. -/
theorem Fair.srequire (hfair : Fair F loaded) (hbuilt : ¬ HalfBuilt F name)
    (hleaves : (srequire F pos name).Leaves loaded loaded') : Fair F loaded' := by
  by_cases hloads : Loads F name
  · obtain ⟨file, hfind⟩ := Option.ne_none_iff_exists'.mp hloads.find_ne_none
    obtain ⟨loaded₁, hfair₁, hout⟩ := srequire_loads pos hfair hfind hloads
    rwa [hleaves.of_ok hout]
  · obtain ⟨loaded₁, hfair₁, ⟨-, hout⟩ | ⟨-, e, hout⟩⟩ :=
      srequire_not_loads pos hfair hloads hbuilt
    · rwa [hleaves.of_ok hout]
    · rwa [hleaves.of_error hout]

theorem Called.fair {names : List Bytes} (h : Called F pos names loaded)
    (hbuilt : ∀ n ∈ names, ¬ HalfBuilt F n) : Fair F loaded := by
  induction h with
  | nil => exact fun _ => Or.inl rfl
  | call _ hleaves ih =>
    exact (ih fun n hn => hbuilt n (List.mem_append_left _ hn)).srequire
      (hbuilt _ (List.mem_append_right _ (List.mem_singleton.mpr rfl))) hleaves

/-- A module that loads does not look absent. -/
theorem Loads.not_looksAbsent (hfair : Fair F loaded) (hloads : Loads F name) :
    ¬ LooksAbsent F loaded pos name := by
  intro hlooks
  have hfine : ∀ {file : File μ} {step : Step μ}, F.find name = some file →
      failing F file = some step → False := by
    intro file step hfind hfails
    obtain ⟨rest, hsteps⟩ := exists_steps_eq hfails
    have hmem : step ∈ file.steps := by simp [hsteps]
    refine not_fine_of_failing hfails ?_
    cases hloads with
    | intro hfind' hvalid hraise hrequire =>
      obtain rfl := Option.some.inj (hfind.symm.trans hfind')
      cases step with
      | register m => trivial
      | raise e => exact (hraise e hmem).elim
      | require pos other => exact hrequire pos other hmem
  cases hlooks with
  | absent _ hfind => exact hloads.find_ne_none hfind
  | started hstarted =>
    rcases hfair name with hnone | ⟨-, hentry⟩ | ⟨hnot, -⟩
    · simp [hnone] at hstarted
    · rw [hentry, Files.entry] at hstarted
      obtain ⟨file, -, hvalue⟩ := Option.map_eq_some_iff.mp hstarted
      exact absurd hvalue (by simp)
    · exact hnot hloads
  | invalid _ hfind hinvalid =>
    cases hloads with
    | intro hfind' hvalid =>
      obtain rfl := Option.some.inj (hfind.symm.trans hfind')
      simp [hinvalid] at hvalid
  | raises _ hfind _ hfails => exact hfine hfind hfails
  | requires _ hfind _ hfails => exact hfine hfind hfails

/-- **A call is answered as it should be exactly when the failure of a module
that is there does not read like an absence.** -/
theorem right_iff (hfair : Fair F loaded) (hbuilt : ¬ HalfBuilt F name) :
    Right F name (srequire F pos name loaded)
      ↔ (F.find name ≠ none → ¬ LooksAbsent F loaded [] name) := by
  rcases hfind : F.find name with _ | file
  · refine iff_of_true ?_ (by simp)
    rw [srequire_absent hfair hfind]
    exact ⟨fun _ => ⟨loaded, rfl⟩, fun file hfile => absurd (hfind.symm.trans hfile) (by simp),
      fun hne => absurd hfind hne⟩
  by_cases hloads : Loads F name
  · refine iff_of_true ?_ fun _ => hloads.not_looksAbsent hfair
    obtain ⟨loaded', -, hout⟩ := srequire_loads pos hfair hfind hloads
    rw [hout]
    refine ⟨fun hnone => absurd hnone hloads.find_ne_none, fun file' hfile _ => ?_,
      fun _ hnot => absurd hloads hnot⟩
    obtain rfl := Option.some.inj (hfind.symm.trans hfile)
    exact ⟨loaded', rfl⟩
  · obtain ⟨loaded', -, ⟨hlooks, hout⟩ | ⟨hlooks, e, hout⟩⟩ :=
      srequire_not_loads pos hfair hloads hbuilt
    · refine iff_of_false (fun hright => ?_) fun h => h (by simp) hlooks
      exact absurd (hfind.symm.trans (hout ▸ hright).find_eq_none) (by simp)
    · refine iff_of_true ?_ fun _ => hlooks
      rw [hout]
      exact ⟨fun hnone => absurd (hfind.symm.trans hnone) (by simp),
        fun _ _ h => absurd h hloads, fun _ _ => ⟨e, loaded', rfl⟩⟩

/-! ## The class of an object -/

/-- **Nothing but what is absent is passed over.** -/
theorem definedType_eq {absent rest : List Bytes} (hfair : Fair F loaded)
    (habsent : ∀ x ∈ absent, F.find x = none) (hfind : F.find name ≠ none)
    (hright : Right F name (srequire F pos name loaded)) :
    (Loads F name → ∃ loaded',
      definedType F pos (absent ++ name :: rest) loaded = .ok name loaded') ∧
    (¬ Loads F name → ∃ e loaded',
      definedType F pos (absent ++ name :: rest) loaded = .error e loaded') := by
  have hskip : ∀ ancestry, firstDefined F pos ancestry (absent ++ name :: rest) loaded
      = firstDefined F pos ancestry (name :: rest) loaded := by
    intro ancestry
    induction absent with
    | nil => rfl
    | cons x absent ih =>
      rw [List.cons_append, firstDefined,
        Run.bind_of_ok (srequire_absent hfair (habsent x List.mem_cons_self))]
      exact ih fun y hy => habsent y (List.mem_cons_of_mem _ hy)
  rw [definedType, hskip, firstDefined]
  refine ⟨fun hloads => ?_, fun hnot => ?_⟩
  · obtain ⟨file, hfile⟩ := Option.ne_none_iff_exists'.mp hfind
    obtain ⟨loaded', hout⟩ := hright.loads file hfile hloads
    exact ⟨loaded', by rw [Run.bind_of_ok hout]; rfl⟩
  · obtain ⟨e, loaded', hout⟩ := hright.broken hfind hnot
    exact ⟨e, loaded', by rw [Run.bind_of_error hout]⟩

/-- **`srequire` tells an absent module from a broken one exactly when the failure
of a module that is there does not read like an absence**, in every run of calls
in which no file is left half built. Answers of that kind are the same whenever
the call is repeated, and `__unpack` passes over no class but those that are not
there. -/
theorem srequire_right_iff {μ : Type} (F : Files μ) (pos : Bytes) {names : List Bytes}
    {loaded : Loaded μ} (hcalled : Called F pos names loaded)
    (hbuilt : ∀ n ∈ names, ¬ HalfBuilt F n) {name : Bytes} (hname : ¬ HalfBuilt F name) :
    (Right F name (srequire F pos name loaded)
      ↔ (F.find name ≠ none → ¬ LooksAbsent F loaded [] name)) ∧
    ((F.find name ≠ none → ¬ LooksAbsent F loaded [] name) →
      (∀ more loaded', Called F pos (names ++ more) loaded' → (∀ n ∈ more, ¬ HalfBuilt F n) →
        (F.find name ≠ none → ¬ LooksAbsent F loaded' [] name) →
        SameKind (srequire F pos name loaded) (srequire F pos name loaded')) ∧
      ∀ absent rest, (∀ x ∈ absent, F.find x = none) → F.find name ≠ none →
        (Loads F name →
          ∃ loaded', definedType F pos (absent ++ name :: rest) loaded = .ok name loaded') ∧
        (¬ Loads F name →
          ∃ e loaded', definedType F pos (absent ++ name :: rest) loaded = .error e loaded')) := by
  have hfair := hcalled.fair hbuilt
  refine ⟨right_iff hfair hname, fun hlooks => ⟨fun more loaded' hcalled' hmore hlooks' => ?_,
    fun absent rest habsent hfind => ?_⟩⟩
  · have hfair' := hcalled'.fair fun n hn =>
      (List.mem_append.mp hn).elim (hbuilt n) (hmore n)
    exact ((right_iff hfair hname).mpr hlooks).sameKind ((right_iff hfair' hname).mpr hlooks')
  · exact definedType_eq hfair habsent hfind ((right_iff hfair hname).mpr hlooks)

end Right

/-! ## Files that fail in one way or another -/

/-- A file that compiles and returns nothing. -/
def chunk (name : Bytes) (steps : List (Step Bytes)) : Bytes × File Bytes :=
  (name, ⟨name ++ bytes ".lua", none, steps, some name⟩)

/-- A class on top of one that is there, one on top of one that is not, and one
that is broken. -/
def classes : Files Bytes where
  files := [chunk (bytes "Token") [], chunk (bytes "Die") [.require [] (bytes "Token")],
    chunk (bytes "Card") [.require [] (bytes "Deck")],
    chunk (bytes "Pile") [.raise (.text (bytes "attempt to index a nil value"))]]
  path := [bytes "?.lua"]
  cpath := []
  path_ne_nil := by simp
  yes := bytes "true"

theorem not_halfBuilt {F : Files μ}
    (h : ∀ p ∈ F.files, ∀ m, Step.register m ∉ p.2.steps) (name : Bytes) : ¬ HalfBuilt F name := by
  intro hbuilt
  induction hbuilt with
  | onward _ _ _ _ ih => exact ih
  | @here name file step m hfind _ hfails hregister =>
    obtain ⟨p, hp, rfl⟩ := Option.map_eq_some_iff.mp hfind
    obtain ⟨rest, hsteps⟩ := exists_steps_eq hfails
    refine h p (List.mem_of_find?_eq_some hp) m ?_
    rw [hsteps]
    exact List.mem_append_left _ hregister

theorem classes_not_halfBuilt (name : Bytes) : ¬ HalfBuilt classes name :=
  not_halfBuilt (by simp [classes, chunk]) name

/-- The class that needs one that is not there is taken for absent. -/
theorem srequire_card : srequire classes [] (bytes "Card") (fun _ => none)
    = .ok .no (Function.update (fun _ => none) (bytes "Card") (some .sentinel)) := by
  rfl

/-- After that the broken one is still known to be broken. -/
theorem srequire_right_iff_pile : ∃ loaded, Called classes [] [bytes "Card"] loaded ∧
    Right classes (bytes "Pile") (srequire classes [] (bytes "Pile") loaded) := by
  have hnone : Called classes [] [] (fun _ => none) := .nil
  have hcalled := Called.call hnone (Or.inl ⟨_, srequire_card⟩)
  refine ⟨_, hcalled, ((srequire_right_iff classes [] hcalled
    (fun n _ => classes_not_halfBuilt n) (classes_not_halfBuilt _)).1).mpr fun _ hlooks => ?_⟩
  have hfails : failing classes (chunk (bytes "Pile")
      [.raise (.text (bytes "attempt to index a nil value"))]).2
      = some (.raise (.text (bytes "attempt to index a nil value"))) :=
    failing_of_cons rfl id
  obtain ⟨text, htext, hmatch⟩ := (looksAbsent_raises (by decide) rfl rfl hfails).mp hlooks
  rw [← Raised.text.inj htext] at hmatch
  exact absurd hmatch (by decide)

/-- There is a file for the class that is taken for absent. -/
theorem not_srequire_right : ¬ ∀ (F : Files Bytes) (pos : Bytes) (names : List Bytes)
    (loaded : Loaded Bytes) (name : Bytes), Called F pos names loaded →
    Right F name (srequire F pos name loaded) := by
  intro h
  have hright := h classes [] [] _ (bytes "Card") .nil
  rw [srequire_card] at hright
  exact absurd hright.find_eq_none (by simp [classes, Files.find, chunk])

/-- And the second time it is not. -/
example : ∃ e loaded, srequire classes [] (bytes "Card")
    (Function.update (fun _ => none) (bytes "Card") (some .sentinel)) = .error e loaded :=
  ⟨_, _, rfl⟩

end Modules

end Felt
