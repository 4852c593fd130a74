import Felt.Client.Mirror
import Felt.Server.Entries

/-!
# What the player does to the mirrors

A player presses buttons and keys over what the window shows, or picks an
entry from a menu. What is pressed is made the name of an event, in which the
modifiers stand as capitals – `mouse_left_S` – and the mirror looks the event
up among its actions, which the server has sent with it. If an action has the
event, the mirror asks the server for its method.

A field shows a scene, and leaves to the others in it what happens over them.

Whatever a client asks for is listed by the class of the mirror, and a player
is asked to drop something only if they hold something in the client
(`of_asks`): the event is `drop` then, which no other gesture is named.

The names of events are texts, put together from the button and the modifiers,
and compared with the texts the server has sent. That no button is called `drop`
is a fact about these texts, so the tables of `qtaux` are in the model with the
strings they have.
-/

namespace Felt

open Server (ActionEntry Kind Method)

namespace Client

variable {α : Type}

/-! ## The names of events -/

namespace Qt

/-- `string.lower`, of a byte in the C locale. -/
def lower (c : UInt8) : UInt8 := if 65 ≤ c && c ≤ 90 then c + 32 else c

/-- `%l`, in the C locale. -/
def isLower (c : UInt8) : Bool := 97 ≤ c && c ≤ 122

/-- `Qt.buttonString`: what stands before the last `Button`. -/
def buttonString (button : Bytes) : Option Bytes :=
  ((List.range (button.length + 1)).filter
    (fun n => (bytes "Button").isPrefixOf (button.drop n))).getLast?.map
      (fun n => (button.take n).map lower)

/-- `gsub(pattern, "")`, where `pattern` says how long the match is that a text
begins with, and `skip` bytes of the last one are still to come. -/
def gsub (pattern : Bytes → ℕ) : ℕ → Bytes → Bytes
  | _, [] => []
  | skip + 1, _ :: text => gsub pattern skip text
  | 0, c :: text =>
    match pattern (c :: text) with
    | 0 => c :: gsub pattern 0 text
    | skip + 1 => gsub pattern skip text

/-- The pattern `NoModifier`. -/
def noModifier (text : Bytes) : ℕ :=
  if (bytes "NoModifier").isPrefixOf text then (bytes "NoModifier").length else 0

/-- The pattern `%l+Modifier`. A match takes all the small letters there are,
for an `M` is none. -/
def modifier (text : Bytes) : ℕ :=
  let n := (text.takeWhile isLower).length
  if 0 < n ∧ (bytes "Modifier").isPrefixOf (text.drop n) then n + (bytes "Modifier").length else 0

/-- `Qt.modString`. -/
def modString (modifiers : List Bytes) : Bytes :=
  if modifiers.length = 1 then []
  else bytes "_" ++ gsub modifier 0 (gsub noModifier 0
    (modifiers.insertionSort (fun a b => a ≤ b)).flatten)

example : modString [bytes "ShiftModifier", bytes "NoModifier", bytes "ControlModifier"]
    = bytes "_CS" := by decide

end Qt

/-! ## Gestures -/

/-- **What a player can do** to a mirror. -/
inductive Gesture where
  /-- They press a button; `covered` is what `itemAt` says of a scene. -/
  | press (button : Bytes) (modifiers : List Bytes) (x y : ℚ) (covered : Bool)
  /-- They press it twice. -/
  | doubleClick (button : Bytes) (modifiers : List Bytes) (x y : ℚ)
  /-- They press a key; `focused` is what `focusItem` says of a scene. -/
  | key (text : Bytes) (modifiers : List Bytes) (focused : Bool)
  /-- The pointer comes. -/
  | enter
  /-- The pointer goes. -/
  | leave
  /-- They pick an entry of the menu. -/
  | menu (n : ℕ) (x y : ℚ)

namespace Model

/-- `client.me().held`, as a condition; `client.me()` is nil if there is no
player of the name. -/
def holding (c : Model α) (name : Bytes) : Option Bool :=
  (c.players.get name).map (fun r => ((match r with
    | .game => none
    | .mirror a => (c.heap a).held) : Option Ref).isSome)

/-- The name of the event when a button is pressed. -/
def pressed (c : Model α) (name button : Bytes) (modifiers : List Bytes) : Option Bytes :=
  -- only the left button drops, and asks whether something is held
  (if button = bytes "LeftButton" then c.holding name else some false).bind (fun held =>
    if held then some (bytes "drop" ++ Qt.modString modifiers)
    else (Qt.buttonString button).map
      (fun text => bytes "mouse_" ++ text ++ Qt.modString modifiers))

/-- **The event a gesture is**, with its place: `Entity.events`, and
`Field.events` for a field. -/
def eventOf (c : Model α) (name : Bytes) (k : Kind) : Gesture → Option (Bytes × ℚ × ℚ)
  | .press button modifiers x y covered =>
    if k = .field ∧ covered then none
    else (c.pressed name button modifiers).map (fun ename => (ename, x, y))
  | .doubleClick button modifiers x y =>
    if k = .field then none
    else (Qt.buttonString button).map
      (fun button => (bytes "mouse_double_" ++ button ++ Qt.modString modifiers, x, y))
  | .key text modifiers focused =>
    if k = .field ∧ focused then none
    else some (bytes "key_" ++ text ++ Qt.modString modifiers, 0, 0)
  | .enter => if k = .field then none else some (bytes "hover_enter", 0, 0)
  | .leave => if k = .field then none else some (bytes "hover_leave", 0, 0)
  | .menu _ _ _ => none

end Model

/-- The actions by their events, as `initActionsMenu` enters them: the last
action that has an event keeps it. -/
def actionsByEvent (entries : List ActionEntry) : Dict Bytes ActionEntry :=
  entries.foldl (fun actions entry =>
    entry.events.foldl (fun actions ename => actions.set ename entry) actions) .empty

/-- The actions a menu shows. -/
def menuOf (entries : List ActionEntry) : List ActionEntry :=
  entries.filter (fun entry => entry.name.isSome)

/-- **The action a gesture comes to**, and its place: through the menu, or
`Entity.event`. -/
def Model.actionOf (c : Model α) (name : Bytes) (k : Kind) : Gesture → Option (ActionEntry × ℚ × ℚ)
  | .menu n x y => (menuOf k.entries)[n]?.map (fun entry => (entry, x, y))
  | gesture => do
    let (ename, x, y) ← c.eventOf name k gesture
    let entry ← (actionsByEvent k.entries).get ename
    some (entry, x, y)

/-- **What the client asks the server for** when the player called `name` does
this to a mirror: the method, and the place. A gesture that causes an error
asks for nothing. -/
def Model.asks (c : Model α) (name : Bytes) (a : ℕ) (gesture : Gesture) :
    Option (Method × ℚ × ℚ) := do
  let k ← (c.heap a).kind
  let (entry, x, y) ← c.actionOf name k gesture
  let method ← Method.ofName entry.method
  some (method, x, y)

/-! ## What a gesture can ask for -/

variable {c : Model α} {name : Bytes} {k : Kind} {gesture : Gesture}

/-- What is entered under an event is an action that has it. -/
theorem mem_of_actionsByEvent {entries : List ActionEntry} {ename : Bytes} {entry : ActionEntry}
    (h : (actionsByEvent entries).get ename = some entry) :
    entry ∈ entries ∧ ename ∈ entry.events := by
  -- of one action's events, and of the actions before
  have hevents : ∀ (enames : List Bytes) (actions : Dict Bytes ActionEntry) (entry' : ActionEntry),
      (enames.foldl (fun actions ename => actions.set ename entry') actions).get ename
          = some entry →
        actions.get ename = some entry ∨ entry' = entry ∧ ename ∈ enames := by
    intro enames
    induction enames with
    | nil => exact fun _ _ h => Or.inl h
    | cons first enames ih =>
      intro actions entry' h
      rcases ih _ _ h with hold | ⟨heq, hmem⟩
      · rw [Dict.get_set] at hold
        split_ifs at hold with hname
        · exact Or.inr ⟨Option.some.inj hold, hname ▸ List.mem_cons_self⟩
        · exact Or.inl hold
      · exact Or.inr ⟨heq, List.mem_cons_of_mem _ hmem⟩
  have hentries : ∀ (rest : List ActionEntry) (actions : Dict Bytes ActionEntry),
      (rest.foldl (fun actions entry =>
        entry.events.foldl (fun actions ename => actions.set ename entry) actions) actions).get
          ename = some entry →
        actions.get ename = some entry ∨ entry ∈ rest ∧ ename ∈ entry.events := by
    intro rest
    induction rest with
    | nil => exact fun _ h => Or.inl h
    | cons first rest ih =>
      intro actions h
      rcases ih _ h with hold | ⟨hmem, hname⟩
      · rcases hevents _ _ _ hold with hbefore | ⟨rfl, hname⟩
        · exact Or.inl hbefore
        · exact Or.inr ⟨List.mem_cons_self, hname⟩
      · exact Or.inr ⟨List.mem_cons_of_mem _ hmem, hname⟩
  exact (hentries entries .empty h).resolve_left (by simp [Dict.get_empty])

/-- Names that begin with another letter are not `drop`. -/
theorem ne_drop {a : UInt8} {text : Bytes} (ha : a ≠ 100) : a :: text ≠ bytes "drop" :=
  fun h => ha (List.cons.inj h).1

/-- **Only who holds something drops.** -/
theorem holding_of_eventOf {x y : ℚ} (h : c.eventOf name k gesture = some (bytes "drop", x, y)) :
    c.holding name = some true := by
  cases gesture with
  | press button modifiers x' y' covered =>
    change (if _ then none else (c.pressed name button modifiers).map _) = _ at h
    split_ifs at h
    obtain ⟨ename, hpressed, heq⟩ := Option.map_eq_some_iff.mp h
    obtain rfl := (Prod.mk.inj heq).1
    obtain ⟨held, hheld, hname⟩ := Option.bind_eq_some_iff.mp hpressed
    -- a press is a drop if the hand is full, and the name of a button if it is empty
    cases held with
    | true =>
      split_ifs at hheld
      · exact hheld
      · exact absurd (Option.some.inj hheld) nofun
    | false =>
      obtain ⟨text, -, hmouse⟩ := Option.map_eq_some_iff.mp hname
      exact absurd hmouse (ne_drop (by decide))
  | doubleClick button modifiers x' y' =>
    change (if _ then none else Option.map _ _) = _ at h
    split_ifs at h
    obtain ⟨text, -, heq⟩ := Option.map_eq_some_iff.mp h
    exact absurd (Prod.mk.inj heq).1 (ne_drop (by decide))
  | key text modifiers focused =>
    change (if _ then none else some _) = _ at h
    split_ifs at h
    exact absurd (Prod.mk.inj (Option.some.inj h)).1 (ne_drop (by decide))
  | enter =>
    change (if _ then none else some _) = _ at h
    split_ifs at h
    exact absurd (Prod.mk.inj (Option.some.inj h)).1 (ne_drop (by decide))
  | leave =>
    change (if _ then none else some _) = _ at h
    split_ifs at h
    exact absurd (Prod.mk.inj (Option.some.inj h)).1 (ne_drop (by decide))
  | menu n x' y' => cases h

/-- The action is one of the class; and if it drops something, something is
held. -/
theorem of_actionOf {entry : ActionEntry} {x y : ℚ}
    (h : c.actionOf name k gesture = some (entry, x, y)) :
    entry ∈ k.entries ∧ (Method.ofName entry.method = some .drop → c.holding name = some true) := by
  have hmenu : ∀ {n : ℕ}, (menuOf k.entries)[n]? = some entry →
      entry ∈ k.entries
        ∧ (Method.ofName entry.method = some .drop → c.holding name = some true) := by
    intro n hn
    obtain ⟨hmem, hname⟩ := List.mem_filter.mp (List.mem_of_getElem? hn)
    refine ⟨hmem, fun hdrop => ?_⟩
    -- what drops has no text
    rw [Kind.entry_of_drop hmem hdrop] at hname
    cases hname
  have hevent : ∀ {ename : Bytes}, c.eventOf name k gesture = some (ename, x, y) →
      (actionsByEvent k.entries).get ename = some entry →
      entry ∈ k.entries
        ∧ (Method.ofName entry.method = some .drop → c.holding name = some true) := by
    intro ename hename hentry
    obtain ⟨hmem, hname⟩ := mem_of_actionsByEvent hentry
    refine ⟨hmem, fun hdrop => ?_⟩
    rw [Kind.entry_of_drop hmem hdrop] at hname
    obtain rfl := List.mem_singleton.mp hname
    exact holding_of_eventOf hename
  cases gesture with
  | menu n x' y' =>
    obtain ⟨entry', hn, heq⟩ := Option.map_eq_some_iff.mp h
    obtain rfl := (Prod.mk.inj heq).1
    exact hmenu hn
  | _ =>
    obtain ⟨⟨ename, x', y'⟩, hename, hrest⟩ := Option.bind_eq_some_iff.mp h
    obtain ⟨entry', hentry, heq⟩ := Option.bind_eq_some_iff.mp hrest
    cases Option.some.inj heq
    exact hevent hename hentry

/-- **What a client asks for**, the class of the mirror lists; and it asks to
drop something only if the player holds something in it. -/
theorem of_asks {a : ℕ} {method : Method} {x y : ℚ}
    (h : c.asks name a gesture = some (method, x, y)) :
    (∃ k, (c.heap a).kind = some k ∧ method ∈ k.actions)
      ∧ (method = .drop → c.holding name = some true) := by
  obtain ⟨k, hk, hrest⟩ := Option.bind_eq_some_iff.mp h
  obtain ⟨⟨entry, x', y'⟩, haction, hrest'⟩ := Option.bind_eq_some_iff.mp hrest
  obtain ⟨method', hmethod, heq⟩ := Option.bind_eq_some_iff.mp hrest'
  obtain rfl := (Prod.mk.inj (Option.some.inj heq)).1
  obtain ⟨hmem, hheld⟩ := of_actionOf haction
  refine ⟨⟨k, hk, Kind.mem_actions hmem hmethod⟩, ?_⟩
  rintro rfl
  exact hheld hmethod

end Client

end Felt
