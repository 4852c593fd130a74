import Felt.Server.Play

/-!
# Who holds what

Hands stay consistent over whole runs, whatever the players do: each of the
changes a deed is made of keeps `Sound`, and that says so. `Manned` is the
state of the server between two deeds, and `Manned.played` what every run
keeps.

What the methods of the server may do is a parameter up to this point. For the
shipped classes it is `Policy.shipped`: an entity is put on one of a higher rank,
and nothing is put on a pile. The rank is what rules cycles out.

A run starts with a server that has a field with a box for each of some games,
and nobody on it. Which games those are makes no difference to any of this.
-/

namespace Felt

namespace Server

open Box (Point)

variable {P : Policy} {S : Site} {s s' : State (Point Obj)} {fuel : ℕ}

/-! ## What every run keeps -/

/-- **The server between two deeds**: the game is sound, its broadcasts are
queued, and every worker that has a player has one that was made. -/
structure Manned (P : Policy) (s : State (Point Obj)) : Prop where
  /-- The game is sound. -/
  sound : Sound P.fits s.game
  /-- The players of workers were made. -/
  staff : ∀ w p, (s.workers w).player = some p → p < s.game.nextPlayer
  /-- What was broadcast is queued. -/
  sent : s.game.sent = []

/-- What is broadcast does not matter. -/
theorem sameLinks_settled {α : Type} (g : Game α) : SameLinks g { g with sent := [] } :=
  ⟨⟨fun _ => rfl, fun _ => rfl, rfl, rfl, rfl, rfl, fun _ => rfl, fun _ => rfl, fun _ => rfl,
    fun _ => rfl, fun _ => rfl⟩, fun _ => rfl, fun _ => rfl, fun _ => rfl, fun _ => rfl⟩

theorem Manned.settle {L : Dict.Length Obj} {g : Game (Point Obj)} (h : Manned P s)
    (hc : Chain P L s.game g) : Manned P (s.settle g) where
  sound := (h.sound.chain hc).sameLinks (sameLinks_settled g)
  staff w p hp := by
    rw [(SameTables.settle s g).player] at hp
    exact (h.staff w p hp).trans_le (h.sound.later_of_chain hc).nextPlayer
  sent := rfl

theorem Manned.left {L : Dict.Length Obj} {w : ℕ} (h : Manned P s) (hl : Left P L w s s') :
    Manned P s' := by
  cases hl with
  | guest _ => exact ⟨h.sound, h.staff, h.sent⟩
  | player _ _ hc _ =>
    have hparted : Manned P (s.parted w) := ⟨h.sound, h.staff, h.sent⟩
    have hsettled := hparted.settle (L := L) hc
    exact ⟨hsettled.sound, hsettled.staff, hsettled.sent⟩
  | impostor _ _ => exact ⟨h.sound, h.staff, h.sent⟩

theorem Manned.welcomed {L : Dict.Length Obj} {w p : ℕ} {name : Bytes} {g : Game (Point Obj)}
    (h : Manned P s) (hc : Chain P L s.game g) (hp : g.players.get name = some p) :
    Manned P (s.welcomed w p name g) where
  sound := (h.settle hc).sound.sameLinks
    ⟨⟨fun _ => rfl, fun _ => rfl, rfl, rfl, rfl, rfl, fun _ => rfl, fun _ => rfl, fun _ => rfl,
      fun _ => rfl, fun _ => rfl⟩, fun _ => rfl, fun _ => rfl, fun _ => rfl, fun _ => rfl⟩
  staff v q hq := by
    rw [welcomed_player] at hq
    split_ifs at hq
    · rw [← Option.some.inj hq]
      exact ((h.sound.chain hc).players name p hp).1
    · exact (h.staff v q hq).trans_le (h.sound.later_of_chain hc).nextPlayer
  sent := rfl

theorem Manned.popped {w : ℕ} (h : Manned P s) : Manned P (s.popped w) where
  sound := h.sound
  staff v p hp := by
    have hsame := (SameTables.mapQueue s w (List.drop 1)).player v
    exact h.staff v p (hsame.symm.trans hp)
  sent := h.sent

/-- **Every deed keeps the server manned.** -/
theorem Manned.done {d : Deed} (h : Manned P s) (hd : Done P S s d s') : Manned P s' := by
  cases hd with
  | joined hj =>
    refine ⟨hj.game ▸ h.sound, fun w p hp => ?_, hj.game ▸ h.sent⟩
    rw [hj.game]
    by_cases hw : w = s.nextWorker
    · rw [hw, hj.guest] at hp
      cases hp
    · rw [hj.worker w hw] at hp
      exact h.staff w p hp
  | missed => exact ⟨h.sound, h.staff, h.sent⟩
  | refused hl => exact h.left hl
  | welcomed _ _ hc hp => exact h.welcomed hc hp
  | said => exact h.settle (L := S.length) (.single (.say rfl))
  | left hl => exact h.left hl
  | acted hc => exact h.settle hc
  | failed _ hc _ hl => exact (h.settle hc).left hl
  | idle _ => exact h
  | sent _ => exact h.popped
  | broken _ hl => exact h.popped.left hl

/-- **Every run keeps the server manned**, if its deeds make only changes that
may occur. -/
theorem Manned.played {ok : Deed → State (Point Obj) → Prop} {s₀ : State (Point Obj)} (hP : P.Hosts)
    (hok : ∀ d s, ok d s → d.May P S s) (h₀ : Manned P s₀) (hs : Played S fuel ok s₀ s) :
    Manned P s := by
  induction hs with
  | start => exact h₀
  | deed d _ hd hmay hl ih =>
    exact ih.done (done_of_leaves hP ih.sound ih.staff hd (hok _ _ hmay) hl)

/-! ## The shipped classes -/

/-- How high an entity stands: boards on fields, piles on boards, and pieces
on both. -/
def Kind.rank : Kind → ℕ
  | .field => 3
  | .chessBoard => 2
  | .goBoard => 2
  | .pile => 1
  | _ => 0

/-- **What the shipped methods put on what**: entities on those of a higher
rank, and nothing on a pile. -/
def Kind.Below (a b : Kind) : Prop := a.rank < b.rank ∧ b ≠ .pile

instance (a b : Kind) : Decidable (a.Below b) := inferInstanceAs (Decidable (_ ∧ _))

/-- **What the shipped methods may do.** Scripts are not among them. -/
def Policy.shipped : Policy where
  fits := Kind.Below
  fields := True
  colours := True
  nowhere := True
  fresh _ := True
  loses := True
  hand _ := True
  scripts := False

/-- The server when it starts, with a box for each of these games. -/
def State.opening (S : Site) (games : List Bytes) : State (Point Obj) :=
  State.start (Game.start S.length games)

/-- **A server that starts is manned**, under any policy the first field can
be made under. -/
theorem manned_opening (S : Site) (games : List Bytes) (hP : P.Hosts) (hfields : P.fields)
    (hfresh : ∀ k, P.fresh k) : Manned P (State.opening S games) := by
  obtain ⟨g, hg, hstart⟩ := start_sound (α := Point Obj) S.length games hP hfields hfresh
  refine ⟨?_, fun _ _ hp => absurd hp nofun, ?_⟩
  · show Sound P.fits (Game.start S.length games)
    rw [hstart]
    exact hg.sound.sameLinks (sameLinks_settled g)
  · show (Game.start S.length games).sent = []
    rw [hstart]

theorem hosts_of_below (hP : P.fits = Kind.Below) : P.Hosts := by
  refine ⟨fun k hk => ?_, fun k hk => ?_, fun k hk => ?_⟩
  all_goals
    rw [hP]
    revert hk
    cases k <;> decide

theorem bare_of_below (hP : P.fits = Kind.Below) : P.Bare := by
  refine ⟨fun k => ?_, fun k => ?_⟩
  all_goals
    rw [hP]
    cases k <;> decide

/-- **The shipped methods do what they may do.** -/
theorem may_shipped (d : Deed) (s : State (Point Obj)) : d.May Policy.shipped S s := by
  have hcomes : ∀ name r g b, Comes Policy.shipped S.length s.game name r g b :=
    fun _ _ _ _ => ⟨fun _ => trivial, fun _ _ _ => trivial⟩
  have hsafe : ∀ w, HandSafe Policy.shipped s w := fun _ _ _ _ _ _ => trivial
  cases d with
  | session e =>
    cases e with
    | connect _ _ => trivial
    | login w name _ r g b =>
      cases name with
      | string name => exact ⟨hcomes name r g b, hsafe w⟩
      | _ => exact hsafe w
    | chat _ _ => trivial
    | disconnect w => exact hsafe w
  | act w e method x y =>
    refine ⟨⟨fun _ _ _ _ _ => ⟨trivial, bare_of_below rfl⟩, fun _ _ _ => ⟨trivial, Or.inr trivial⟩,
      fun _ _ _ _ _ _ => ⟨fun _ => trivial, fun _ => ⟨trivial, fun _ _ => trivial⟩⟩⟩,
      fun _ _ => trivial,
      fun _ => hsafe w⟩
  | transmit w _ => exact fun _ _ => hsafe w

/-! ## Hands -/

/-- **Hands agree.** -/
structure HandsAgree (g : Game (Point Obj)) : Prop where
  /-- A player holds an item exactly when the item is held by them. -/
  held_iff : ∀ p e, (g.people p).held = some e ↔ (g.entities e).heldBy = some p
  /-- An item is in one hand. -/
  one_hand : ∀ p q e, (g.people p).held = some e → (g.people q).held = some e → p = q
  /-- A player who leaves leaves nothing in their hand. -/
  left : ∀ p g', Player.disconnect p g = .ok () g' →
    (g'.people p).held = none ∧ ∀ e, (g'.entities e).heldBy ≠ some p

theorem Sound.handsAgree {g : Game (Point Obj)} (h : Sound Kind.Below g) : HandsAgree g where
  held_iff := h.hands.held_iff
  one_hand p q e hp hq := by
    rw [h.hands.held_iff] at hp hq
    exact Option.some.inj (hp.symm.trans hq)
  left p g' hg' := by
    obtain ⟨_, t, ht, hc, hempty⟩ := Player.disconnect_changes (P := Policy.shipped)
      (L := Dict.Length.first Obj) p g (fun _ _ _ => trivial)
    rw [hg'] at ht
    obtain ⟨-, rfl⟩ := Outcome.ok.inj ht
    refine ⟨hempty, fun e he => ?_⟩
    rw [← (h.chain hc).hands.held_iff, hempty] at he
    cases he

/-- **Hands agree in every state a run reaches**: whoever logs in, leaves,
takes and drops whatever, in any order. -/
theorem handsAgree_of_played (S : Site) (fuel : ℕ) (games : List Bytes) (s : State (Point Obj))
    (hs : Played S fuel (fun _ _ => True) (State.opening S games) s) : HandsAgree s.game :=
  ((manned_opening S games (hosts_of_below rfl) trivial (fun _ => trivial)).played
    (hosts_of_below rfl) (fun d s _ => may_shipped d s) hs).sound.handsAgree

/-- A player who has opened the go box and taken a stone. -/
theorem handsAgree_of_takeItem :
    ∃ s : State (Point Obj), (s.game.people 0).held = some 6 ∧ HandsAgree s.game := by
  obtain ⟨s, hs, hheld⟩ := exists_played (fun _ _ => True) Site.plain 5
    (State.opening Site.plain [bytes "go"])
    [.session (.connect 0 (some [])),
      .session (.login 0 (.string (bytes "a")) .nil .nil .nil .nil),
      .act 0 1 .openBox none none, .act 0 4 .takeItem none none]
    (Q := fun s => (s.game.people 0).held = some 6) (by decide +kernel)
  exact ⟨s, hheld, handsAgree_of_played Site.plain 5 [bytes "go"] s hs⟩

end Server

end Felt
