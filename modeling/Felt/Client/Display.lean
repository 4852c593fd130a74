import Felt.Lua.Format
import Felt.Net.Call

/-!
# Messages for the player

`server.message` formats a text and sends it to every client as the only
argument of `message`. The client hands its arguments to `ui.message`, which
takes them for a format and its arguments, and formats once more. A text
without a `%` is not changed by that. A text with one is: it comes out shorter,
or `string.format` raises, and the client disconnects.

Where a `%` gets into a text is known to the server: from a name, or another
argument, or from a `%%` (`messages_shown_iff`).

Everything behind `print` and the window is left out; what is shown is the text
that the two are given. A text goes from the server's `string.format` through a
message to the client's, and what is asked is whether the second one changes it.
-/

namespace Felt

namespace Client

open Box Net

variable {α ω τ β γ : Type} [DecidableEq α] [DecidableEq ω] [DecidableEq β]

/-- `string.format(…)`, with the format as its first argument. -/
def stringFormat (P : Printf) : List (Value γ) → Except FormatError Bytes
  | [] => .error .badArgument
  | fmt :: args =>
    match fmt.checkString with
    | some fmt => format P fmt args
    | none => .error .badArgument

/-- **What the player sees**: the terminal, and the window with the log. -/
structure Screen where
  /-- What was printed. -/
  printed : List Bytes
  /-- What was appended to the log. -/
  log : List Bytes

/-- **`ui.message`**: `print(string.format(…))`, and the same for the log. -/
def uiMessage (P : Printf) (args : List (Value γ)) : Run Screen FormatError Unit := do
  let text ← Run.ofExcept (stringFormat P args)
  Run.modify (fun s => { s with printed := s.printed ++ [text] })
  let text ← Run.ofExcept (stringFormat P args)
  Run.modify (fun s => { s with log := s.log ++ [text] })

/-- `client.api.message`. -/
def apiMessage (P : Printf) (args : List (Value γ)) : Run Screen FormatError Unit :=
  uiMessage P args

/-- **A text is shown**: the message it is sent with is unpacked, `message` is
called whatever border `#` picks, and afterwards the text is on the terminal and
in the log. -/
def Shown (P : Printf) (G : Graph α) (objs : α → Option ℕ) (R : Receiver ω τ)
    (store : Store ω τ) (root : α) (text : Bytes) : Prop :=
  ∃ fuel b st fuel' i ust φ order, pack G (some objs) fuel (.ref root) = .ok b st ∧
    unpack .ideal R fuel' b store = .ok (.ref (.table i)) ust ∧
    Arrives G objs R store (.ref root) (.ref (.table i)) ust φ order ∧
    ∀ L : Interpreter (Point ω), ∃ args,
      clientDispatch L (ust.store.tables.getD i []) = .ok ⟨.nil, .string (bytes "message"), args⟩ ∧
      ∀ screen, apiMessage P args screen = .ok () ⟨screen.printed ++ [text], screen.log ++ [text]⟩

/-- `ui.message` shows a text exactly when that is what its arguments write. -/
theorem uiMessage_shows_iff (P : Printf) (args : List (Value γ)) (text : Bytes) :
    (∀ screen, uiMessage P args screen = .ok () ⟨screen.printed ++ [text], screen.log ++ [text]⟩)
      ↔ stringFormat P args = .ok text := by
  unfold uiMessage
  rcases hf : stringFormat P args with e | out
  · refine iff_of_false (fun h => ?_) (by simp)
    exact absurd (h ⟨[], []⟩) (by simp [Run.bind_apply])
  · refine ⟨fun h => ?_, fun h screen => ?_⟩
    · have hscreen := h ⟨[], []⟩
      simp only [Run.bind_apply, Run.ofExcept_ok, Run.modify_apply, Outcome.ok.injEq,
        Screen.mk.injEq, List.nil_append, List.cons.injEq, and_true, true_and] at hscreen
      rw [hscreen.1]
    · obtain rfl := Except.ok.inj h
      simp [Run.bind_apply]

section Shown

variable {P : Printf} {G : Graph α} {objs : α → Option ℕ} {R : Receiver ω τ} {store : Store ω τ}
  {root : α} {t : Table α} {text : Bytes}

omit [DecidableEq α] in
/-- What the message is made of. -/
theorem eq_of_mem_elements (ht : IsCall t .nil (bytes "message") [.string text]) {x : Value α}
    (hx : x ∈ t.elements) : x = .string (bytes "method") ∨ x = .string (bytes "message")
      ∨ x = position 0 ∨ x = .string text := by
  obtain ⟨p, hp, hxp⟩ := List.mem_flatMap.mp hx
  obtain ⟨hv, h | h | ⟨i, hi, hget⟩⟩ := (ht.mem p.1 p.2).mp hp
  · exact absurd h.2 hv
  · rcases List.mem_pair.mp hxp with rfl | rfl
    · exact Or.inl h.1
    · exact Or.inr (Or.inl h.2)
  · obtain rfl : i = 0 := by
      have hlt : i < 1 := (List.getElem?_eq_some_iff.mp hget).1
      omega
    rcases List.mem_pair.mp hxp with rfl | rfl
    · exact Or.inr (Or.inr (Or.inl hi))
    · exact Or.inr (Or.inr (Or.inr (Option.some.inj hget).symm))

omit [DecidableEq α] in
/-- The text is all there is to go wrong on the way. -/
theorem occurs_name_iff (hroot : objs root = none) (hG : G root = .table t)
    (ht : IsCall t .nil (bytes "message") [.string text]) :
    Occurs G (fun a => (objs a).isSome = true) (.ref root) (.string (bytes "n"))
      ↔ text = bytes "n" := by
  constructor
  · intro hocc
    by_contra hne
    refine hocc.preserves
      (P := fun v => v ≠ .string (bytes "n") ∧ ∀ a, v = .ref a → a = root) ?_
      ⟨by simp, fun a ha => (Value.ref.inj ha).symm⟩ |>.1 rfl
    intro a _ ha x hx
    obtain rfl := ha.2 a rfl
    rw [hG] at hx
    rcases eq_of_mem_elements ht hx with rfl | rfl | rfl | rfl
    · exact ⟨by simp [show bytes "method" ≠ bytes "n" by decide], by simp⟩
    · exact ⟨by simp [show bytes "message" ≠ bytes "n" by decide], by simp⟩
    · exact ⟨by simp [position], by simp [position]⟩
    · exact ⟨by simpa using hne, by simp⟩
  · rintro rfl
    have hmem : (position 0, .string (bytes "n")) ∈ t.pairs :=
      (ht.mem _ _).mpr ⟨by simp, Or.inr (Or.inr ⟨0, rfl, rfl⟩)⟩
    refine .part (x := .string (bytes "n")) (by simp [hroot]) ?_ (.self _)
    rw [hG]
    exact List.mem_flatMap.mpr ⟨_, hmem, by simp⟩

omit [DecidableEq α] in
/-- A text that is not the name of the encoder's counter can be sent. -/
theorem canSend_text (hroot : objs root = none) (hG : G root = .table t)
    (ht : IsCall t .nil (bytes "message") [.string text]) (htext : text ≠ bytes "n") :
    CanSend G objs root [.string text] where
  noHole i j v _ hi _ := by
    have := List.mem_of_getElem? hi
    simp at this
  fits k v hk _ := by
    have hlt : k < 1 := (List.getElem?_eq_some_iff.mp hk).1
    rw [maxCStack]
    omega
  exact n hn := by simp at hn
  nameless hocc := htext ((occurs_name_iff hroot hG ht).mp hocc)

/-- **A text is shown exactly when formatting it does not change it**, and it can
be sent. -/
theorem shown_iff [Fintype α] {ids : Set ℕ} {held : τ → Set ℕ}
    (hunderstands : Understands G objs R store ids held) (hroot : objs root = none)
    (hG : G root = .table t) (ht : IsCall t .nil (bytes "message") [.string text]) :
    Shown P G objs R store root text ↔ percentByte ∉ text ∧ text ≠ bytes "n" := by
  -- what `message` is called with
  have hargs : ∀ (φ : α → Point ω) (L : Interpreter (Point ω)), text ≠ bytes "n" →
      clientDispatch L (received φ t)
        = .ok ⟨.nil, .string (bytes "message"), [.string text]⟩ := by
    intro φ L htext
    refine dispatch_eq_ok.mpr ⟨_, (canSend_text hroot hG ht htext).unpackTable_eq ht (by simp) φ L,
      ?_⟩
    rw [ht.rawget_self, ht.rawget_method]
    rfl
  have hformat : ∀ out, stringFormat P [(.string text : Value (Point ω))] = .ok out
      ↔ format P text ([] : List (Value (Point ω))) = .ok out := fun out => Iff.rfl
  constructor
  · rintro ⟨fuel, b, st, fuel', i, ust, φ, order, hp, hu, harr, hshow⟩
    have htext : text ≠ bytes "n" := fun h =>
      (decodes_iff_not_occurs hunderstands (v := .ref root) trivial).mp
        ⟨fuel, b, st, fuel', _, ust, hp, hu⟩ ((occurs_name_iff hroot hG ht).mpr h)
    obtain ⟨_, hi, -, hcontents⟩ := harr.contents hroot hG hp hu
    obtain rfl : i = _ := by simpa using hi
    obtain ⟨args, hdispatch, hscreen⟩ := hshow (Interpreter.first _)
    rw [show ust.store.tables.getD i [] = received φ t from hcontents, hargs φ _ htext] at hdispatch
    obtain rfl : [.string text] = args := by
      simpa using Except.ok.inj hdispatch
    exact ⟨notMem_of_format P ((hformat text).mp ((uiMessage_shows_iff P _ text).mp hscreen)),
      htext⟩
  · rintro ⟨hpercent, htext⟩
    obtain ⟨fuel, b, st, hp, fuel', w, ust, hu, φ, order, harr⟩ :=
      exists_arrives hunderstands (v := .ref root) trivial (canSend_text hroot hG ht htext).nameless
    obtain ⟨i, rfl, -, hcontents⟩ := harr.contents hroot hG hp hu
    refine ⟨fuel, b, st, fuel', i, ust, φ, order, hp, hu, harr, fun L => ⟨[.string text], ?_, ?_⟩⟩
    · rw [show ust.store.tables.getD i [] = received φ t from hcontents]
      exact hargs φ L htext
    · exact (uiMessage_shows_iff P _ text).mpr
        ((hformat text).mpr (format_of_notMem P hpercent _))

/-- **A message of the server's is shown as it was formatted exactly when no `%`
got into it** – the format has no `%%` in it, and no directive has written one
for its argument – and it is not the string `"n"`. -/
theorem messages_shown_iff {α ω τ : Type} [DecidableEq α] [DecidableEq ω] [Fintype α]
    {G : Graph α} {objs : α → Option ℕ} {R : Receiver ω τ} {store : Store ω τ} {ids : Set ℕ}
    {held : τ → Set ℕ} (hunderstands : Understands G objs R store ids held) {root : α}
    {t : Table α} {text : Bytes} (hroot : objs root = none) (hG : G root = .table t)
    (ht : IsCall t .nil (bytes "message") [.string text]) (P : Printf) {fmt : Bytes}
    {args : List (Value γ)} (h : stringFormat P (.string fmt :: args) = .ok text) :
    Shown P G objs R store root text ↔ Harmless P (pieces fmt) args ∧ text ≠ bytes "n" := by
  rw [shown_iff hunderstands hroot hG ht, notMem_format_iff P h]

end Shown

/-! ## The messages of the server

The formats of the server have `%s` for every name, and no other directive. -/

/-- A piece that copies: a byte of the format, or a name. -/
def Copies : Piece → Prop
  | .char _ => True
  | .item form conv => form = bytes "%s" ∧ conv = 115
  | .percent | .bad _ => False

/-- **Names without a `%` do no harm.** -/
theorem harmless_names (P : Printf) {ps : List Piece} (hps : ∀ p ∈ ps, Copies p)
    {names : List Bytes} (hnames : ∀ name ∈ names, percentByte ∉ name) :
    Harmless P ps (names.map (Value.string : Bytes → Value γ)) := by
  induction ps generalizing names with
  | nil => trivial
  | cons p ps ih =>
    have hrest : ∀ q ∈ ps, Copies q := fun q hq => hps q (List.mem_cons_of_mem _ hq)
    have hp := hps p List.mem_cons_self
    cases p with
    | char c => exact ih hrest hnames
    | percent => exact hp.elim
    | bad e => exact hp.elim
    | item form conv =>
      obtain ⟨rfl, rfl⟩ := hp
      cases names with
      | nil => exact ⟨by simp, ih hrest hnames⟩
      | cons name names =>
        refine ⟨fun out hout => ?_, ih hrest fun n hn => hnames n (List.mem_cons_of_mem _ hn)⟩
        obtain rfl : formatString name = out := by
          rw [List.map_cons, List.head?_cons, Option.bind_some, convert_string] at hout
          exact Option.some.inj hout
        refine fun hmem => hnames name List.mem_cons_self ?_
        unfold formatString at hmem
        split at hmem
        · exact hmem
        · exact (List.takeWhile_prefix _).subset hmem

section Texts

variable (P : Printf) (player item onto : Bytes)

omit P player in
theorem pieces_joins : pieces (bytes "%s joins the game.")
    = .item (bytes "%s") 115 :: (bytes " joins the game.").map Piece.char := by decide

theorem format_joins : format P (bytes "%s joins the game.") [(.string player : Value γ)]
    = .ok (formatString player ++ bytes " joins the game.") := by
  simp only [format, pieces_joins, render, List.head?_cons, Option.bind_some, convert_string,
    render_chars, Except.map]

theorem format_disconnected : format P (bytes "%s disconnected.") [(.string player : Value γ)]
    = .ok (formatString player ++ bytes " disconnected.") := by
  have hpieces : pieces (bytes "%s disconnected.")
      = .item (bytes "%s") 115 :: (bytes " disconnected.").map Piece.char := by decide
  simp only [format, hpieces, render, List.head?_cons, Option.bind_some, convert_string,
    render_chars, Except.map]

theorem format_picksUp :
    format P (bytes "%s picks up %s.") [(.string player : Value γ), .string item]
    = .ok (formatString player ++ bytes " picks up " ++ formatString item ++ bytes ".") := by
  have hpieces : pieces (bytes "%s picks up %s.")
      = .item (bytes "%s") 115 :: ((bytes " picks up ").map Piece.char
        ++ .item (bytes "%s") 115 :: (bytes ".").map Piece.char) := by decide
  simp only [format, hpieces, render, List.head?_cons, Option.bind_some, convert_string,
    render_chars_append, render_chars, List.tail_cons, Except.map, List.append_assoc]

theorem format_drops :
    format P (bytes "%s drops %s on %s") [(.string player : Value γ), .string item, .string onto]
    = .ok (formatString player ++ bytes " drops " ++ formatString item ++ bytes " on "
        ++ formatString onto) := by
  have hpieces : pieces (bytes "%s drops %s on %s")
      = .item (bytes "%s") 115 :: ((bytes " drops ").map Piece.char
        ++ .item (bytes "%s") 115 :: ((bytes " on ").map Piece.char
          ++ [.item (bytes "%s") 115])) := by decide
  simp only [format, hpieces, render, List.head?_cons, Option.bind_some, convert_string,
    render_chars_append, List.tail_cons, Except.map, List.append_assoc, List.append_nil]

end Texts

/-- `sprintf`, for the directive that stands in the formats of the server. -/
def plainPrintf : Printf where
  number _ _ := []
  string _ s := s.takeWhile (· ≠ 0)
  string_plain _ := rfl

/-- The message with a text. -/
def textMessage (text : Bytes) : Table Unit :=
  callTable .nil (bytes "message") [.string text]

theorem sendable_textMessage (text : Bytes) : ∀ x ∈ (textMessage text).elements, x.Sendable :=
  sendable_callTable _ _ _ trivial fun x hx => by
    obtain rfl := List.mem_singleton.mp hx
    trivial

theorem isCall_textMessage (text : Bytes) :
    IsCall (textMessage text) .nil (bytes "message") [.string text] :=
  isCall_callTable _ _ _ (Or.inl rfl) (by simp)

/-- A name without a `%` is shown. -/
theorem messages_shown_iff_frog :
    Shown plainPrintf (fun _ => .table (textMessage (bytes "ToxicFrog joins the game.")))
      (fun _ => none) (Receiver.plain Unit Unit) ⟨[], ()⟩ ()
      (bytes "ToxicFrog joins the game.") := by
  have hformat : stringFormat plainPrintf
      [(.string (bytes "%s joins the game.") : Value Unit), .string (bytes "ToxicFrog")]
      = .ok (bytes "ToxicFrog joins the game.") := format_joins plainPrintf (bytes "ToxicFrog")
  have hcopies : ∀ p ∈ pieces (bytes "%s joins the game."), Copies p := by
    rw [pieces_joins]
    intro p hp
    rcases List.mem_cons.mp hp with rfl | hp
    · exact ⟨rfl, rfl⟩
    · obtain ⟨c, -, rfl⟩ := List.mem_map.mp hp
      trivial
  have hnames : ∀ name ∈ [bytes "ToxicFrog"], percentByte ∉ name := by decide
  exact (messages_shown_iff (understands_table _ (sendable_textMessage _)) rfl rfl
    (isCall_textMessage _) plainPrintf hformat).mpr
    ⟨harmless_names plainPrintf hcopies hnames, by decide⟩

/-- Somebody whose name is `100%` disconnects everybody when he joins. -/
theorem not_messages_shown : ¬ ∀ (fmt : Bytes) (args : List (Value Unit)) (text : Bytes),
    stringFormat plainPrintf (.string fmt :: args) = .ok text →
    Shown plainPrintf (fun _ => .table (textMessage text)) (fun _ => none)
      (Receiver.plain Unit Unit) ⟨[], ()⟩ () text := by
  intro h
  have hshown := h (bytes "%s joins the game.") [.string (bytes "100%")] _
    (format_joins plainPrintf (bytes "100%"))
  have hplain := (shown_iff (understands_table _ (sendable_textMessage _)) rfl rfl
    (isCall_textMessage _)).mp hshown
  exact absurd hplain.1 (by decide)

/-- What the client gets out of it is an error. -/
example : stringFormat plainPrintf [(.string (bytes "100% joins the game.") : Value Unit)]
    = .error (.invalidOption 106) := by decide

end Client

end Felt
