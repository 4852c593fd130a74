import Mathlib.Data.List.Induction

/-!
# Feeds

A feed is what is cast, in order, and who joins at which point of it. Whoever
joins hears a first message of their own, and from then on everything that is
cast.

`heard` is what somebody has heard of a feed, and `heard_common` says what two
have in common: from the moment the later of them joins both hear the same.

Nothing here says what is cast or who casts it, nor that anything is ever
delivered: a feed is the order in which things were said, as somebody would
write it down who sees everything. A run of a server makes one longer at its
end, so that the lemmas about a longer feed come in two: for those who have
joined already (`heard_append_of_joins`) everything new is heard, and for those
who have not (`heard_append_of_not_joins`) only what the new part says to them.
-/

namespace Felt

namespace Feed

/-- **An entry of a feed.** -/
inductive Entry (ι μ : Type) where
  /-- A message is cast. -/
  | cast (m : μ)
  /-- Somebody joins, and hears this first. -/
  | join (w : ι) (first : μ)

variable {ι μ : Type}

/-- What is cast. -/
def casts : List (Entry ι μ) → List μ
  | [] => []
  | .cast m :: l => m :: casts l
  | .join _ _ :: l => casts l

/-- Somebody joins. -/
def Joins (w : ι) (l : List (Entry ι μ)) : Prop := ∃ m, .join w m ∈ l

theorem casts_append (l₁ l₂ : List (Entry ι μ)) : casts (l₁ ++ l₂) = casts l₁ ++ casts l₂ := by
  induction l₁ with
  | nil => rfl
  | cons e l₁ ih =>
    cases e with
    | cast m => exact congrArg (m :: ·) ih
    | join _ _ => exact ih

@[simp] theorem casts_map_cast (ms : List μ) : casts (ms.map (Entry.cast (ι := ι))) = ms := by
  induction ms with
  | nil => rfl
  | cons m ms ih => exact congrArg (m :: ·) ih

@[simp] theorem joins_cons_cast {w : ι} {m : μ} {l : List (Entry ι μ)} :
    Joins w (.cast m :: l) ↔ Joins w l := by
  refine exists_congr (fun m' => List.mem_cons.trans (or_iff_right ?_))
  nofun

@[simp] theorem joins_cons_join {w v : ι} {m : μ} {l : List (Entry ι μ)} :
    Joins w (.join v m :: l) ↔ v = w ∨ Joins w l := by
  constructor
  · rintro ⟨m', h⟩
    refine (List.mem_cons.mp h).imp (fun he => ?_) (fun hl => ⟨m', hl⟩)
    exact (Entry.join.inj he).1.symm
  · rintro (rfl | ⟨m', h⟩)
    · exact ⟨m, List.mem_cons_self⟩
    · exact ⟨m', List.mem_cons_of_mem _ h⟩

theorem not_joins_nil (w : ι) : ¬Joins w ([] : List (Entry ι μ)) := by
  rintro ⟨m, hm⟩
  cases hm

theorem not_joins_map_cast (w : ι) (ms : List μ) : ¬Joins w (ms.map Entry.cast) := by
  induction ms with
  | nil => exact not_joins_nil w
  | cons m ms ih =>
    rw [List.map_cons, joins_cons_cast]
    exact ih

theorem joins_append {w : ι} {l₁ l₂ : List (Entry ι μ)} :
    Joins w (l₁ ++ l₂) ↔ Joins w l₁ ∨ Joins w l₂ := by
  unfold Joins
  rw [← exists_or]
  exact exists_congr (fun m => List.mem_append)

theorem joins_singleton {w v : ι} {m : μ} : Joins w [.join v m] ↔ v = w := by
  rw [joins_cons_join]
  exact or_iff_left (not_joins_nil w)

section Heard

variable [DecidableEq ι]

/-- **What `w` has heard**: what it was told when it joined, and what has been
cast since. -/
def heard (w : ι) : List (Entry ι μ) → List μ
  | [] => []
  | .cast _ :: l => heard w l
  | .join v m :: l => if v = w then m :: casts l else heard w l

/-- **Whoever has joined hears everything that is cast.** -/
theorem heard_append_of_joins {w : ι} {l₁ : List (Entry ι μ)} (h : Joins w l₁)
    (l₂ : List (Entry ι μ)) : heard w (l₁ ++ l₂) = heard w l₁ ++ casts l₂ := by
  induction l₁ with
  | nil => exact absurd h (not_joins_nil w)
  | cons e l₁ ih =>
    cases e with
    | cast _ => exact ih (joins_cons_cast.mp h)
    | join v m =>
      show (if v = w then m :: casts (l₁ ++ l₂) else heard w (l₁ ++ l₂))
        = (if v = w then m :: casts l₁ else heard w l₁) ++ casts l₂
      split_ifs with hv
      · rw [casts_append]
        rfl
      · exact ih ((joins_cons_join.mp h).resolve_left hv)

/-- Whoever has not joined has heard nothing. -/
theorem heard_append_of_not_joins {w : ι} {l₁ : List (Entry ι μ)} (h : ¬Joins w l₁)
    (l₂ : List (Entry ι μ)) : heard w (l₁ ++ l₂) = heard w l₂ := by
  induction l₁ with
  | nil => rfl
  | cons e l₁ ih =>
    cases e with
    | cast _ => exact ih (fun hl => h (joins_cons_cast.mpr hl))
    | join v m =>
      obtain ⟨hv, hl⟩ := not_or.mp (fun hor => h (joins_cons_join.mpr hor))
      show (if v = w then m :: casts (l₁ ++ l₂) else heard w (l₁ ++ l₂)) = _
      rw [if_neg hv]
      exact ih hl

theorem heard_of_not_joins {w : ι} {l : List (Entry ι μ)} (h : ¬Joins w l) : heard w l = [] := by
  have hl := heard_append_of_not_joins h []
  rw [List.append_nil] at hl
  exact hl

/-- The first thing somebody hears is what they are told when they join. -/
theorem exists_heard {w : ι} {l : List (Entry ι μ)} (h : Joins w l) :
    ∃ m rest, .join w m ∈ l ∧ heard w l = m :: rest := by
  induction l with
  | nil => exact absurd h (not_joins_nil w)
  | cons e l ih =>
    cases e with
    | cast _ =>
      obtain ⟨m, rest, hmem, hheard⟩ := ih (joins_cons_cast.mp h)
      exact ⟨m, rest, List.mem_cons_of_mem _ hmem, hheard⟩
    | join v m =>
      by_cases hv : v = w
      · refine ⟨m, casts l, hv ▸ List.mem_cons_self, ?_⟩
        show (if v = w then m :: casts l else heard w l) = _
        rw [if_pos hv]
      · obtain ⟨m', rest, hmem, hheard⟩ := ih ((joins_cons_join.mp h).resolve_left hv)
        refine ⟨m', rest, List.mem_cons_of_mem _ hmem, ?_⟩
        show (if v = w then m :: casts l else heard w l) = _
        rw [if_neg hv, hheard]

/-- **What two have heard**: `l₁` is the feed before the later of them joins,
`x` is that one, and behind it both hear what is cast in `l₂`. -/
structure Common (w v : ι) (l : List (Entry ι μ)) (x : ι) (first : μ) (l₁ l₂ : List (Entry ι μ)) :
    Prop where
  /-- The feed is split there. -/
  split : l = l₁ ++ .join x first :: l₂
  /-- It is one of them who joins there, for the first time, and the other has
  joined. -/
  later : (x = w ∧ ¬Joins w l₁ ∧ Joins v l₁) ∨ (x = v ∧ ¬Joins v l₁ ∧ Joins w l₁)
  /-- What the one hears. -/
  left : heard w l = heard w (l₁ ++ [.join x first]) ++ casts l₂
  /-- What the other hears. -/
  right : heard v l = heard v (l₁ ++ [.join x first]) ++ casts l₂

/-- **From the moment the later one joins, both hear the same.** -/
theorem heard_common {w v : ι} (hne : w ≠ v) {l : List (Entry ι μ)} (hw : Joins w l)
    (hv : Joins v l) : ∃ x first l₁ l₂, Common w v l x first l₁ l₂ := by
  -- the split is where the second of them joins
  have hsplit : ∃ x first l₁ l₂, l = l₁ ++ .join x first :: l₂
      ∧ ((x = w ∧ ¬Joins w l₁ ∧ Joins v l₁) ∨ (x = v ∧ ¬Joins v l₁ ∧ Joins w l₁)) := by
    induction l using List.reverseRecOn with
    | nil =>
      obtain ⟨m, hm⟩ := hw
      cases hm
    | append_singleton l e ih =>
      by_cases hw' : Joins w l
      · by_cases hv' : Joins v l
        · obtain ⟨x, first, l₁, l₂, hl, hlater⟩ := ih hw' hv'
          refine ⟨x, first, l₁, l₂ ++ [e], ?_, hlater⟩
          rw [hl, List.append_assoc]
          rfl
        · obtain ⟨m, hm⟩ := (joins_append.mp hv).resolve_left hv'
          obtain rfl := List.mem_singleton.mp hm
          exact ⟨v, m, l, [], rfl, Or.inr ⟨rfl, hv', hw'⟩⟩
      · obtain ⟨m, hm⟩ := (joins_append.mp hw).resolve_left hw'
        obtain rfl := List.mem_singleton.mp hm
        refine ⟨w, m, l, [], rfl, Or.inl ⟨rfl, hw', (joins_append.mp hv).resolve_right ?_⟩⟩
        exact fun h => hne (joins_singleton.mp h)
  obtain ⟨x, first, l₁, l₂, hl, hlater⟩ := hsplit
  have hboth : Joins w (l₁ ++ [.join x first]) ∧ Joins v (l₁ ++ [.join x first]) := by
    rw [joins_append, joins_append, joins_singleton, joins_singleton]
    rcases hlater with ⟨hx, -, h⟩ | ⟨hx, -, h⟩
    · exact ⟨Or.inr hx, Or.inl h⟩
    · exact ⟨Or.inl h, Or.inr hx⟩
  have hl' : l = (l₁ ++ [.join x first]) ++ l₂ := by
    rw [hl, List.append_assoc]
    rfl
  refine ⟨x, first, l₁, l₂, hl, hlater, ?_, ?_⟩
  · rw [hl']
    exact heard_append_of_joins hboth.1 l₂
  · rw [hl']
    exact heard_append_of_joins hboth.2 l₂

end Heard

end Feed

end Felt
