import Felt.Client.World

/-!
# Ids mean what was meant

Whatever the players do, and however far a client is behind: every id in every
message it is still to receive will be there when the message is received, and
be that of the mirror of the object the server meant. When nothing is left to
receive the client has the ids the server has, and the game's.

Ids are used again when objects have been deleted; but what is deleted is
deleted everywhere before its id can come with something else.

`Follows` asks for two things: that the snapshot puts a client in step, and that
every stretch of updates keeps it so. Both were proved for each kind of message
(`Felt.Client.Snapshot`, `Felt.Client.Replica`), and are put together here for
the shipped methods, whatever the run is.
-/

namespace Felt

namespace Client

open Box (Point)

open Server (Game Obj Msg Policy Site Sound Chain Updates Deed Numbered)

section Updates

variable {P : Policy} {L : Dict.Length Obj} {g g' : Game (Point Obj)} {c : Model (Point Obj)}

/-- **Whoever is in step receives what is broadcast** of any updates. -/
theorem Indexed.updates {ms : List (Msg (Point Obj))} (h : Indexed g c) (hg : Numbered g)
    (hus : Updates P L g ms g') : ∃ c', Replays c ms c' ∧ Indexed g' c' := by
  induction hus generalizing c with
  | nil g => exact ⟨c, .nil c, h⟩
  | cons hu _ ih =>
    obtain ⟨c₁, hreplays, hc₁⟩ := h.receive_update hg hu
    obtain ⟨c', hreplays', hc'⟩ := ih (h.echo hg hc₁) (hu.numbered hg)
    exact ⟨c', hreplays.append hreplays', hc'⟩

/-- **Changes are updates**, if no script runs and fields stand on nothing. -/
theorem updates_of_chain (h : Sound P.fits g) (hP : ∀ a b, P.fits a b → a ≠ .field)
    (hscripts : ¬P.scripts) (hc : Chain P L g g') : ∃ ms, Updates P L g ms g' := by
  induction hc with
  | refl => exact ⟨[], .nil g⟩
  | tail hc hlast ih =>
    obtain ⟨ms, hms⟩ := ih
    obtain ⟨ms', hms'⟩ := Server.updates_of_change (h.chain hc) hP hscripts hlast
    exact ⟨ms ++ ms', hms.append hms'⟩

end Updates

/-- Nothing puts a field on something. -/
theorem ne_field_of_below (a b : Server.Kind) (h : a.Below b) : a ≠ .field := by
  rintro rfl
  revert h
  cases b <;> decide

/-- **Clients keep in step with the ids**, whatever the shipped methods do. -/
theorem follows_indexed (L : Dict.Length Obj) :
    Follows Policy.shipped L (fun _ => True) (Indexed (α := Point Obj)) where
  stretch {g g' c} h hsent hs hc := by
    obtain ⟨ms, hms⟩ := updates_of_chain h ne_field_of_below id hs.chain
    obtain ⟨c', hreplays, hc'⟩ := hc.updates h.numbered hms
    refine ⟨c', ?_, hc'.reshaped (.of_sameObjects (Server.sameLinks_settled g').toSameObjects)
      (.refl c')⟩
    have hms' := hms.sent h.numbered
    rw [hsent] at hms'
    rw [hms']
    exact hreplays
  snapshot {g} h _ := by
    have hrank : ∀ a b, Policy.shipped.fits a b → Server.Kind.rank a < Server.Kind.rank b :=
      fun _ _ hab => hab.1
    exact ⟨_, replays_snapshot h hrank, indexed_joined h⟩
  said _ := trivial

/-- **What the clients have of the ids.** -/
structure SameIds (g : Game (Point Obj)) (c : Model (Point Obj)) : Prop where
  /-- The ids are the server's, and the game's. -/
  ids : ∀ id, (∃ r, c.objects.get id = some r) ↔ id = 0 ∨ ∃ o, g.objects.get id = some o
  /-- `r_objects` is the inverse of `objects`. -/
  inverse : Dict.Inverse c.objects c.rObjects

theorem Indexed.sameIds {g : Game (Point Obj)} {c : Model (Point Obj)} (h : Indexed g c) :
    SameIds g c where
  ids id := by
    constructor
    · rintro ⟨r, hr⟩
      exact h.only id r hr
    · rintro (rfl | ⟨o, ho⟩)
      · exact ⟨_, h.inGame.game⟩
      · obtain ⟨a, ha, -⟩ := h.mirror id o ho
        exact ⟨_, ha⟩
  inverse := h.inverse

/-- **Every id means what was meant.** In every world that a run reaches in
which nobody logs in twice, with whatever games, players and requests, and for
whoever is logged in: what is on its way and what is queued can be received,
every id in it is there when it is, as the mirror of the object that was
meant; and when all has been received, the ids are the server's, and the two
tables inverse to each other. -/
theorem replays_of_reaches (S : Site) (fuel : ℕ) (games : List Bytes) (W : World) (w : ℕ)
    (hW : Reached (serving S fuel (fun d s => d.Once S s)) (Server.State.opening S games) W)
    (hw : W.server.LoggedIn w) :
    ∃ c, Replays (W.client w) (W.pending w) c ∧ SameIds W.server.game c := by
  have hsynced : Synced Policy.shipped (Indexed (α := Point Obj)) W := by
    refine synced_of_reaches (follows_indexed S.length) ?_ (synced_opening rfl S games) hW
    rintro W' sent s' h ⟨d, hd, honce, hl, rfl⟩
    exact ⟨Server.serves_of_leaves rfl h.manned h.seats h.unmade (fun v hv => (h.guest v hv).2.1)
      hd honce (fun _ => Server.may_shipped d _) hl, fun _ => trivial⟩
  obtain ⟨c, hreplays, hc⟩ := hsynced.follows w hw
  exact ⟨c, hreplays, hc.sameIds⟩

/-- Somebody opens the go box, takes a stone, puts it back, and takes another
one, which has the id of the first; then somebody else logs in. -/
theorem replays_of_reaches_stone : ∃ s : Server.State (Point Obj), s.LoggedIn 1
    ∧ (s.game.people 0).held = some 7
    ∧ ∃ c, Replays .fresh (s.workers 1).sendq c ∧ SameIds s.game c := by
  obtain ⟨s, hs, hheld, hin⟩ := exists_reaches Site.plain 5
    (Server.State.opening Site.plain [bytes "go"])
    [.session (.connect 0 (some [])),
      .session (.login 0 (.string (bytes "a")) .nil .nil .nil .nil),
      .act 0 1 .openBox none none, .act 0 4 .takeItem none none, .act 0 4 .drop (some 0) (some 0),
      .act 0 4 .takeItem none none, .session (.connect 1 (some [])),
      .session (.login 1 (.string (bytes "b")) .nil .nil .nil .nil)]
    (Q := fun s => (s.game.people 0).held = some 7 ∧ s.LoggedIn 1) (by decide +kernel)
  exact ⟨s, hin, hheld, replays_of_reaches Site.plain 5 [bytes "go"] (.start s) 1 hs hin⟩

end Client

end Felt
