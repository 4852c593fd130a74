import Mathlib.Logic.Relation
import Felt.Lua.Dict
import Felt.Lua.Text

/-!
# Classes and their actions

`class(name, superclass)` copies the fields of the superclass into the new
class, so a class starts out with the very list of actions its superclass has.
`ACTION` is meant to copy that list before the first time it adds to it. It
tells that it has to by comparing the list with the one the superclass has *at
that moment* – and when the superclass has made a list of its own since, the
two are different, nothing is copied, and the action is added to a list that
classes further up still have.

`action_local_iff` says when this happens, for every hierarchy and every order
of declarations and registrations. As long as every class registers its actions
before it has a subclass, which is what the class files do, it never does
(`action_local_of_inOrder`).

Lists are numbered and classes hold numbers of lists, as two classes may hold the
same one. The condition is about the class that registers: its list is the one
its superclass has now, or nobody has it but the class and those below it. In the
first case a copy is made, and in the second there is none to be made.
-/

namespace Felt

namespace Server

/-- **An action of a class**: what the menu says, the method, and the events
that run it. -/
structure ActionEntry where
  /-- The text of the menu, or `false`. -/
  name : Option Bytes
  /-- The method. -/
  method : Bytes
  /-- The events. -/
  events : List Bytes
  deriving DecidableEq

/-- **A class**, by the fields that `class` and `ACTION` look at. -/
structure Class where
  /-- `_SUPER`, by its name: a class that is declared again is the same table. -/
  superclass : Option Bytes
  /-- `actions`: which list this is. -/
  actions : Option ℕ
  /-- Whether there is a method `ACTION`. -/
  hasAction : Bool
  deriving DecidableEq

/-- **The classes there are**, and the lists of actions. -/
structure Classes where
  /-- `package.loaded`, as far as it has classes. -/
  loaded : Dict Bytes Class
  /-- What each list of actions has in it. -/
  lists : List (List ActionEntry)

namespace Classes

/-- The classes up to `game.felt.Entity`, the first that has actions. -/
def entity : Classes where
  loaded := ((Dict.empty.set (bytes "Object") ⟨none, none, false⟩).set
    (bytes "game.felt.Object") ⟨some (bytes "Object"), none, false⟩).set
    (bytes "game.felt.Entity") ⟨some (bytes "game.felt.Object"), some 0, true⟩
  lists := [[]]

/-- **`class(name, superclass)`**: `module(name)` makes a table unless there is
one, and `cloneto` copies what fields the superclass has. -/
def declare (s : Classes) (name superclass : Bytes) : Option Classes := do
  let parent ← s.loaded.get superclass
  let child := (s.loaded.get name).getD ⟨none, none, false⟩
  some ⟨s.loaded.set name ⟨some superclass, parent.actions.or child.actions,
    parent.hasAction || child.hasAction⟩, s.lists⟩

/-- `c:ACTION(name, method, …)`. -/
def action (s : Classes) (c : Bytes) (a : ActionEntry) : Option Classes := do
  let cls ← s.loaded.get c
  if cls.hasAction then
    let parent ← cls.superclass.bind s.loaded.get
    let r ← cls.actions
    let list ← s.lists[r]?
    if cls.actions = parent.actions then
      -- `class.actions = {unpack(class.actions)}`
      some ⟨s.loaded.set c { cls with actions := some s.lists.length }, s.lists ++ [list ++ [a]]⟩
    else some { s with lists := s.lists.set r (list ++ [a]) }
  else none

/-- A call of `class`, or of `ACTION`. -/
inductive Op where
  /-- `class(name, superclass)`. -/
  | declare (name superclass : Bytes)
  /-- `c:ACTION(…)`. -/
  | action (c : Bytes) (a : ActionEntry)

/-- One call. -/
def step (s : Classes) : Op → Option Classes
  | .declare name superclass => s.declare name superclass
  | .action c a => s.action c a

/-- Calls, one after the other. -/
def run (s : Classes) : List Op → Option Classes
  | [] => some s
  | op :: ops => (s.step op).bind (fun s' => s'.run ops)

/-! ## What can be seen of the lists -/

/-- Which list a class has. -/
def listOf (s : Classes) (c : Bytes) : Option ℕ := (s.loaded.get c).bind Class.actions

/-- **The actions of a class.** -/
def actionsOf (s : Classes) (c : Bytes) : Option (List ActionEntry) :=
  (s.listOf c).bind (fun r => s.lists[r]?)

/-- The superclass of a class. -/
def superOf (s : Classes) (c : Bytes) : Option Bytes := (s.loaded.get c).bind Class.superclass

/-- `d` is `c`, or a class below it. -/
def Below (s : Classes) (c d : Bytes) : Prop :=
  Relation.ReflTransGen (fun x y => s.superOf x = some y) d c

/-- **An action was registered locally**: the class has it, at the end of its
list, and no class but those below has another list than before. -/
structure Local (s : Classes) (c : Bytes) (a : ActionEntry) (s' : Classes) : Prop where
  /-- The class has it. -/
  added : ∃ list, s.actionsOf c = some list ∧ s'.actionsOf c = some (list ++ [a])
  /-- The others do not. -/
  others : ∀ d, ¬ s.Below c d → s'.actionsOf d = s.actionsOf d

/-- **The list may be added to**: it is the one the superclass has now, so
`ACTION` copies it, or it is a list that no class has but those below. -/
def Free (s : Classes) (c : Bytes) : Prop :=
  s.listOf c = (s.superOf c).bind s.listOf ∨ ∀ d, ¬ s.Below c d → s.listOf d ≠ s.listOf c

/-! ## Lists are where they should be -/

/-- Every class has a list that there is. -/
def Bounded (s : Classes) : Prop := ∀ c r, s.listOf c = some r → r < s.lists.length

theorem declare_eq_some {s s' : Classes} {name superclass : Bytes}
    (h : s.declare name superclass = some s') : ∃ parent child,
      s.loaded.get superclass = some parent ∧ child = (s.loaded.get name).getD ⟨none, none, false⟩
      ∧ s' = ⟨s.loaded.set name ⟨some superclass, parent.actions.or child.actions,
        parent.hasAction || child.hasAction⟩, s.lists⟩ := by
  obtain ⟨parent, hparent, h⟩ := Option.bind_eq_some_iff.mp h
  exact ⟨parent, _, hparent, rfl, (Option.some.inj h).symm⟩

/-- **What `ACTION` can do**: copy the list and add to the copy, or add to the
list there is. -/
theorem action_eq_some {s s' : Classes} {c : Bytes} {a : ActionEntry}
    (h : s.action c a = some s') : ∃ cls r list,
      s.loaded.get c = some cls ∧ cls.actions = some r ∧ s.lists[r]? = some list ∧
      ((s.listOf c = (s.superOf c).bind s.listOf ∧
          s' = ⟨s.loaded.set c { cls with actions := some s.lists.length },
            s.lists ++ [list ++ [a]]⟩)
        ∨ (s.listOf c ≠ (s.superOf c).bind s.listOf ∧
          s' = ⟨s.loaded, s.lists.set r (list ++ [a])⟩)) := by
  obtain ⟨cls, hcls, h⟩ := Option.bind_eq_some_iff.mp h
  split at h
  case isFalse => exact absurd h (by simp)
  obtain ⟨parent, hparent, h⟩ := Option.bind_eq_some_iff.mp h
  obtain ⟨r, hr, h⟩ := Option.bind_eq_some_iff.mp h
  obtain ⟨list, hlist, h⟩ := Option.bind_eq_some_iff.mp h
  have hsuper : (s.superOf c).bind s.listOf = parent.actions := by
    obtain ⟨p, hp, hget⟩ := Option.bind_eq_some_iff.mp hparent
    simp [superOf, listOf, hcls, hp, hget]
  have hown : s.listOf c = cls.actions := by simp [listOf, hcls]
  refine ⟨cls, r, list, hcls, hr, hlist, ?_⟩
  rw [hsuper, hown]
  split at h
  · next heq => exact Or.inl ⟨heq, (Option.some.inj h).symm⟩
  · next hne => exact Or.inr ⟨hne, (Option.some.inj h).symm⟩

/-- What `class` does to the lists that classes have. -/
theorem listOf_declare {s s' : Classes} {name superclass : Bytes}
    (h : s.declare name superclass = some s') (c : Bytes) :
    s'.listOf c = if c = name then (s.listOf superclass).or (s.listOf name) else s.listOf c := by
  obtain ⟨parent, child, hparent, rfl, rfl⟩ := declare_eq_some h
  by_cases hc : c = name
  · subst hc
    rcases hchild : s.loaded.get c with _ | child <;>
      simp [listOf, hparent, hchild]
  · simp [listOf, Dict.get_set, hc]

theorem bounded_entity : entity.Bounded := by
  intro c r h
  obtain ⟨cls, hcls, hr⟩ := Option.bind_eq_some_iff.mp h
  simp only [entity, Dict.get_set] at hcls
  split_ifs at hcls
  all_goals
    first
    | obtain rfl := Option.some.inj hcls
      simp_all [entity]
    | exact absurd hcls (by simp [Dict.get, Dict.empty])

theorem Bounded.declare {s s' : Classes} (hs : s.Bounded) {name superclass : Bytes}
    (h : s.declare name superclass = some s') : s'.Bounded := by
  intro c r hr
  have hlists : s'.lists = s.lists := by
    obtain ⟨parent, child, -, -, rfl⟩ := declare_eq_some h
    rfl
  rw [hlists]
  rw [listOf_declare h] at hr
  split at hr
  · rcases Option.or_eq_some_iff.mp hr with hr | ⟨-, hr⟩ <;> exact hs _ r hr
  · exact hs c r hr

/-- Which list the classes have after an action was added. -/
theorem listOf_action {s : Classes} {c : Bytes} {cls : Class} {lists : List (List ActionEntry)}
    (r : ℕ) (d : Bytes) :
    listOf ⟨s.loaded.set c { cls with actions := some r }, lists⟩ d
      = if d = c then some r else s.listOf d := by
  by_cases hd : d = c
  · simp [listOf, hd]
  · simp [listOf, Dict.get_set, hd]

theorem Bounded.action {s s' : Classes} (hs : s.Bounded) {c : Bytes} {a : ActionEntry}
    (h : s.action c a = some s') : s'.Bounded := by
  obtain ⟨cls, r, list, -, -, -, ⟨-, rfl⟩ | ⟨-, rfl⟩⟩ := action_eq_some h
  · intro d k hk
    rw [listOf_action] at hk
    rw [List.length_append, List.length_singleton]
    split at hk
    · obtain rfl := Option.some.inj hk
      omega
    · have := hs d k hk
      omega
  · intro d k hk
    rw [List.length_set]
    exact hs d k hk

theorem Bounded.run {s s' : Classes} (hs : s.Bounded) {ops : List Op}
    (h : s.run ops = some s') : s'.Bounded := by
  induction ops generalizing s with
  | nil => exact Option.some.inj h ▸ hs
  | cons op ops ih =>
    obtain ⟨s₁, hstep, hrest⟩ := Option.bind_eq_some_iff.mp h
    refine ih ?_ hrest
    cases op with
    | declare name superclass => exact hs.declare hstep
    | action c a => exact hs.action hstep

/-! ## When an action is registered locally -/

/-- A list that is copied is seen by no other class. -/
theorem local_of_copied {s : Classes} (hs : s.Bounded) {c : Bytes} {cls : Class} {r : ℕ}
    {list : List ActionEntry} (hr : s.listOf c = some r) (hlist : s.lists[r]? = some list)
    (a : ActionEntry) : s.Local c a
      ⟨s.loaded.set c { cls with actions := some s.lists.length }, s.lists ++ [list ++ [a]]⟩ where
  added := ⟨list, by simp [actionsOf, hr, hlist], by simp [actionsOf, listOf_action]⟩
  others d hd := by
    have hne : d ≠ c := fun h => hd (h ▸ .refl)
    rw [actionsOf, actionsOf, listOf_action, if_neg hne]
    rcases hk : s.listOf d with _ | k
    · rfl
    · have := hs d k hk
      simp [List.getElem?_append_left this]

/-- What becomes of a class's actions when a list is added to. -/
theorem actionsOf_set {s : Classes} (hs : s.Bounded) (r : ℕ) (list : List ActionEntry)
    (d : Bytes) : actionsOf ⟨s.loaded, s.lists.set r list⟩ d
      = if s.listOf d = some r then some list else s.actionsOf d := by
  show (s.listOf d).bind (fun k => (s.lists.set r list)[k]?) = _
  rcases hk : s.listOf d with _ | k
  · simp [actionsOf, hk]
  · have hlt := hs d k hk
    by_cases hkr : k = r
    · subst hkr
      simp [hlt]
    · simp [actionsOf, hk, hkr, Ne.symm hkr]

/-- **One registration**: it is local exactly when the list may be added to. -/
theorem Bounded.local_iff {s s' : Classes} (hs : s.Bounded) {c : Bytes} {a : ActionEntry}
    (h : s.action c a = some s') : s.Local c a s' ↔ s.Free c := by
  obtain ⟨cls, r, list, hcls, hr, hlist, hor⟩ := action_eq_some h
  have hown : s.listOf c = some r := by simp [listOf, hcls, hr]
  rcases hor with ⟨hsame, rfl⟩ | ⟨hdiff, rfl⟩
  · exact iff_of_true (local_of_copied hs hown hlist a) (Or.inl hsame)
  · refine ⟨fun hlocal => Or.inr (fun d hd heq => ?_), fun hfree => ?_⟩
    · have hothers := hlocal.others d hd
      rw [actionsOf_set hs, if_pos (heq.trans hown)] at hothers
      have hold : s.actionsOf d = some list := by simp [actionsOf, heq, hown, hlist]
      rw [hold] at hothers
      simpa using congrArg List.length (Option.some.inj hothers)
    · have halone := hfree.resolve_left hdiff
      refine ⟨⟨list, by simp [actionsOf, hown, hlist], ?_⟩, fun d hd => ?_⟩
      · rw [actionsOf_set hs, if_pos hown]
      · rw [actionsOf_set hs, if_neg (hown ▸ halone d hd)]

/-- **Registering an action is local to a class exactly when its list may be
added to**: after any calls of `class` and `ACTION` whatever. -/
theorem action_local_iff (ops : List Op) {s s' : Classes} (hs : entity.run ops = some s)
    {c : Bytes} {a : ActionEntry} (h : s.action c a = some s') :
    s.Local c a s' ↔ s.Free c :=
  (bounded_entity.run hs).local_iff h

/-- Two classes, one on top of the other; then the lower registers an action. -/
def tower : List Op :=
  [.declare (bytes "felt.Token") (bytes "game.felt.Entity"),
    .declare (bytes "felt.Die") (bytes "felt.Token"),
    .action (bytes "felt.Token") ⟨some (bytes "Pick Up"), bytes "pickup", [bytes "mouse_left"]⟩]

/-- What a die could do. -/
def roll : ActionEntry := ⟨some (bytes "Roll"), bytes "roll", [bytes "mouse_left"]⟩

/-- While the token has the list of all entities, a die gets a copy. -/
theorem action_local_iff_die : ∃ s s', entity.run (tower.take 2) = some s ∧
    s.action (bytes "felt.Die") roll = some s' ∧ s.Local (bytes "felt.Die") roll s' := by
  obtain ⟨s, hs⟩ := Option.isSome_iff_exists.mp
    (by decide +kernel : (entity.run (tower.take 2)).isSome = true)
  have haction : ((entity.run (tower.take 2)).bind
      (fun s => s.action (bytes "felt.Die") roll)).isSome = true := by decide +kernel
  have hlists : (entity.run (tower.take 2)).map (fun s => (s.listOf (bytes "felt.Die"),
      (s.superOf (bytes "felt.Die")).bind s.listOf)) = some (some 0, some 0) := by decide +kernel
  rw [hs, Option.bind_some] at haction
  rw [hs, Option.map_some, Option.some.injEq, Prod.mk.injEq] at hlists
  obtain ⟨s', hs'⟩ := Option.isSome_iff_exists.mp haction
  exact ⟨s, s', hs, hs',
    (action_local_iff _ hs hs').mpr (Or.inl (hlists.1.trans hlists.2.symm))⟩

/-- Once the token has a list of its own, what is registered for a die becomes an
action of every entity. -/
theorem not_action_local : ¬ ∀ (ops : List Op) (s s' : Classes) (c : Bytes) (a : ActionEntry),
    entity.run ops = some s → s.action c a = some s' → s.Local c a s' := by
  intro h
  obtain ⟨s, hs⟩ := Option.isSome_iff_exists.mp
    (by decide +kernel : (entity.run tower).isSome = true)
  have haction : ((entity.run tower).bind (fun s => s.action (bytes "felt.Die") roll)).map
      (fun s' => s'.actionsOf (bytes "game.felt.Entity")) = some (some [roll]) := by
    decide +kernel
  have hbefore : (entity.run tower).map (fun s => (s.actionsOf (bytes "game.felt.Entity"),
      s.superOf (bytes "game.felt.Entity"), s.superOf (bytes "game.felt.Object"),
      s.superOf (bytes "Object")))
        = some (some [], some (bytes "game.felt.Object"), some (bytes "Object"), none) := by
    decide +kernel
  rw [hs, Option.bind_some] at haction
  rw [hs, Option.map_some, Option.some.injEq] at hbefore
  simp only [Prod.mk.injEq] at hbefore
  obtain ⟨hempty, hsuper, hsuper', hbase⟩ := hbefore
  obtain ⟨s', hs', hadded⟩ := Option.map_eq_some_iff.mp haction
  -- the superclasses of an entity, and no die among them
  have hnot : ¬ s.Below (bytes "felt.Die") (bytes "game.felt.Entity") := by
    intro hbelow
    rcases hbelow.cases_head with heq | ⟨x, hx, hbelow⟩
    · exact absurd heq (by decide)
    obtain rfl := Option.some.inj (hsuper.symm.trans hx)
    rcases hbelow.cases_head with heq | ⟨x, hx, hbelow⟩
    · exact absurd heq (by decide)
    obtain rfl := Option.some.inj (hsuper'.symm.trans hx)
    rcases hbelow.cases_head with heq | ⟨x, hx, -⟩
    · exact absurd heq (by decide)
    · exact absurd (hbase.symm.trans hx) (by simp)
  have hothers := (h tower s s' _ roll hs hs').others _ hnot
  rw [hadded, hempty] at hothers
  exact absurd hothers (by simp)

/-! ## Classes that register before they have subclasses -/

/-- What a class file does: a class is declared once, and it registers its
actions before any class has it as its superclass. -/
def InOrder (s : Classes) : Op → Prop
  | .declare name _ => s.loaded.get name = none
  | .action c _ => ∀ d, s.superOf d ≠ some c

/-- Every call of a run is in order. -/
def AllInOrder : Classes → List Op → Prop
  | _, [] => True
  | s, op :: ops => s.InOrder op ∧ ∀ s', s.step op = some s' → AllInOrder s' ops

/-- **Every list may be added to.** -/
structure AllFree (s : Classes) : Prop where
  /-- The lists there are. -/
  bounded : s.Bounded
  /-- A superclass is a class. -/
  super : ∀ c p, s.superOf c = some p → s.loaded.get p ≠ none
  /-- The lists may be added to. -/
  free : ∀ c, s.Free c

theorem superOf_declare {s s' : Classes} {name superclass : Bytes}
    (h : s.declare name superclass = some s') (c : Bytes) :
    s'.superOf c = if c = name then some superclass else s.superOf c := by
  obtain ⟨parent, child, -, -, rfl⟩ := declare_eq_some h
  by_cases hc : c = name
  · simp [superOf, hc]
  · simp [superOf, Dict.get_set, hc]

/-- A class that is new changes nothing for those below the others. -/
theorem Below.declare {s s' : Classes} {name superclass : Bytes}
    (h : s.declare name superclass = some s') (hnew : s.loaded.get name = none) {c d : Bytes}
    (hd : s.Below c d) : s'.Below c d := by
  refine Relation.ReflTransGen.mono (fun x y hxy => ?_) _ _ hd
  have hx : x ≠ name := by
    rintro rfl
    exact absurd hxy (by simp [superOf, hnew])
  rw [superOf_declare h, if_neg hx]
  exact hxy

theorem AllFree.declare {s s' : Classes} (hs : s.AllFree) {name superclass : Bytes}
    (h : s.declare name superclass = some s') (hnew : s.loaded.get name = none) :
    s'.AllFree := by
  obtain ⟨parent, child, hparent, -, hs'⟩ := declare_eq_some h
  have hlist := listOf_declare h
  have hsuper := superOf_declare h
  have hne : superclass ≠ name := by
    rintro rfl
    exact absurd (hnew.symm.trans hparent) (by simp)
  have hnone : s.listOf name = none := by simp [listOf, hnew]
  have hkept : ∀ c p, s.superOf c = some p → p ≠ name := fun c p hp hpn =>
    hs.super c p hp (hpn ▸ hnew)
  -- the new class shares the list of its superclass, which is still the one it would copy
  refine ⟨hs.bounded.declare h, fun c p hp => ?_, fun c => ?_⟩
  · rw [hs', Dict.get_set]
    split
    · simp
    · rw [hsuper] at hp
      split at hp
      · obtain rfl := Option.some.inj hp
        simp [hparent]
      · exact hs.super c p hp
  · by_cases hc : c = name
    · refine Or.inl ?_
      rw [hlist, if_pos hc, hsuper, if_pos hc, Option.bind_some, hlist, if_neg hne, hnone,
        Option.or_none]
    · rw [Free, hlist, if_neg hc, hsuper, if_neg hc]
      refine (hs.free c).imp (fun hsame => ?_) (fun halone d hd => ?_)
      · rw [hsame]
        rcases hp : s.superOf c with _ | p
        · rfl
        · rw [Option.bind_some, Option.bind_some, hlist, if_neg (hkept c p hp)]
      · rw [hlist]
        split
        · next hdn =>
          rw [hnone, Option.or_none]
          refine halone superclass (fun hbelow => hd ?_)
          refine .head ?_ (hbelow.declare h hnew)
          rw [hsuper, if_pos hdn]
        · exact halone d (fun hbelow => hd (hbelow.declare h hnew))

/-- Registering an action changes no superclass. -/
theorem superOf_action {s s' : Classes} {c : Bytes} {a : ActionEntry}
    (h : s.action c a = some s') (d : Bytes) : s'.superOf d = s.superOf d := by
  obtain ⟨cls, r, list, hcls, -, -, ⟨-, rfl⟩ | ⟨-, rfl⟩⟩ := action_eq_some h
  · by_cases hd : d = c
    · simp [superOf, hd, hcls]
    · simp [superOf, Dict.get_set, hd]
  · rfl

theorem AllFree.action {s s' : Classes} (hs : s.AllFree) {c : Bytes} {a : ActionEntry}
    (h : s.action c a = some s') (hleaf : ∀ d, s.superOf d ≠ some c) : s'.AllFree := by
  have hsuper := superOf_action h
  have hbelow : ∀ {x y}, s.Below x y → s'.Below x y := fun hxy =>
    Relation.ReflTransGen.mono (fun u v huv => (hsuper u).trans huv) _ _ hxy
  refine ⟨hs.bounded.action h, fun d p hp => ?_, fun d => ?_⟩
  · rw [hsuper] at hp
    obtain ⟨cls, r, list, hcls, -, -, ⟨-, rfl⟩ | ⟨-, rfl⟩⟩ := action_eq_some h
    · show (s.loaded.set c _).get p ≠ none
      rw [Dict.get_set]
      split
      · simp
      · exact hs.super d p hp
    · exact hs.super d p hp
  · obtain ⟨cls, r, list, hcls, -, -, ⟨-, rfl⟩ | ⟨-, rfl⟩⟩ := action_eq_some h
    -- the list is copied: nobody else has the copy
    · have hlt : ∀ x, s.listOf x ≠ some s.lists.length := fun x hx =>
        absurd (hs.bounded x _ hx) (lt_irrefl _)
      rw [Free, hsuper]
      simp only [listOf_action]
      by_cases hd : d = c
      · refine Or.inr (fun x hx => ?_)
        have hxc : x ≠ c := by
          rintro rfl
          exact hx (hd ▸ .refl)
        rw [if_pos hd, if_neg hxc]
        exact hlt x
      · rw [if_neg hd]
        refine (hs.free d).imp (fun hsame => ?_) (fun halone x hx => ?_)
        · rw [hsame]
          rcases hp : s.superOf d with _ | p
          · rfl
          · rw [Option.bind_some, Option.bind_some, if_neg]
            rintro rfl
            exact hleaf d hp
        · split
          · exact (hlt d).symm
          · exact halone x (fun hxd => hx (hbelow hxd))
    · exact (hs.free d).imp_right (fun halone x hx => halone x (fun hxd => hx (hbelow hxd)))

theorem allFree_entity : entity.AllFree := by
  have hlist : ∀ d, entity.listOf d = if d = bytes "game.felt.Entity" then some 0 else none := by
    intro d
    simp only [listOf, entity, Dict.get_set]
    split_ifs <;> rfl
  have hsuper : ∀ d, entity.superOf d = if d = bytes "game.felt.Entity" then
      some (bytes "game.felt.Object") else if d = bytes "game.felt.Object" then
      some (bytes "Object") else none := by
    intro d
    simp only [superOf, entity, Dict.get_set]
    split_ifs <;> rfl
  refine ⟨bounded_entity, fun c p hp => ?_, fun c => ?_⟩
  · rw [hsuper] at hp
    split_ifs at hp
    · obtain rfl := Option.some.inj hp
      decide +kernel
    · obtain rfl := Option.some.inj hp
      decide +kernel
  · by_cases hc : c = bytes "game.felt.Entity"
    · refine Or.inr (fun d hd => ?_)
      have hdc : d ≠ bytes "game.felt.Entity" := by
        rintro rfl
        exact hd (hc ▸ .refl)
      rw [hlist, hlist, if_neg hdc, if_pos hc]
      simp
    · refine Or.inl ?_
      rw [hlist, hsuper, if_neg hc, if_neg hc]
      split
      · rw [Option.bind_some, hlist, if_neg (by decide)]
      · rfl

/-- **Classes that are declared once and register before they have subclasses
register locally.** -/
theorem action_local_of_inOrder (ops : List Op) (hops : entity.AllInOrder ops) {s s' : Classes}
    (hs : entity.run ops = some s) {c : Bytes} {a : ActionEntry} (h : s.action c a = some s') :
    s.Local c a s' := by
  have hfree : ∀ (s₀ : Classes), s₀.AllFree → s₀.AllInOrder ops → s₀.run ops = some s →
      s.AllFree := by
    clear hs hops
    induction ops with
    | nil => exact fun s₀ h₀ _ hrun => Option.some.inj hrun ▸ h₀
    | cons op ops ih =>
      intro s₀ h₀ hops hrun
      obtain ⟨s₁, hstep, hrest⟩ := Option.bind_eq_some_iff.mp hrun
      refine ih s₁ ?_ (hops.2 s₁ hstep) hrest
      cases op with
      | declare name superclass => exact h₀.declare hstep hops.1
      | action c a => exact h₀.action hstep hops.1
  have hend := hfree entity allFree_entity hops hs
  exact (hend.bounded.local_iff h).mpr (hend.free c)

end Classes

end Server

end Felt
