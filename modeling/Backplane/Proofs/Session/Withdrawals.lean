import Backplane.Proofs.Registry.Rosters
import Backplane.Proofs.Session.Moments
/-!
# `Backplane.Proofs.Session.Withdrawals`: whose registrations can be withdrawn

A withdrawal goes by the ticket alone.  So whoever has come by a ticket can withdraw what it names,
through whichever dossier he acts, as soon as nobody refers to it; and whoever has published it
still has it on record then.  All that protects a registration from others is its being in use.

A withdrawal is `unregister_interface` or `unregister_advisor`, a ticket a `RegistrationToken`.
-/
namespace Backplane

variable {e : Environment} {r : Rack} {p : Party} {t : Ticket} {n : Nat} {name : String}

/-- Whether a ticket names something present that nobody refers to. -/
def Broker.Idle (b : Broker) (t : Ticket) : Prop :=
  ∃ x, b.listing? t = some x ∧ x.usage.outstanding = 0

theorem Broker.WellFormed.idle_iff {b : Broker} (hb : b.WellFormed) :
    b.Idle t ↔ ∃ b', b.withdraw t = .ok b' := by
  rw [Idle, hb.withdraw_eq, usage?_eq_map]
  cases b.listing? t with
  | none => simp
  | some x =>
      simp only [Option.some.injEq, Option.map_some, exists_eq_left']
      split <;> simp [*]

namespace Environment

/-- The environment for somebody who has tickets under other names, wherever he has them from. -/
def naming (e : Environment) (tickets : List (String × Ticket)) : Environment := { e with tickets }

/-- Whether a ticket is refused, and nothing changes, when it is withdrawn through the dossier of an
instance, wherever whoever does so has it from. -/
def Refuses (e : Environment) (n : Nat) (t : Ticket) : Prop :=
  ∀ home tickets name, Keyed.get? tickets name = some t → ∃ err,
    (e.naming tickets).perform ⟨home, .dossier n⟩ (.withdraw name) =
      (.failed (.registry err), e.naming tickets)

/-- Whether nothing can be withdrawn through a dossier but what was published through it. -/
def Guarded (e : Environment) : Prop :=
  ∀ d ∈ e.dossiers, ∀ t, .published (some d.member) t ∉ e.history → e.Refuses d.member t

/-- Whether the registration of a ticket has been taken out on the demand of a party, and nothing
else has changed. -/
structure TakesOut (e : Environment) (p : Party) (t : Ticket) (e' : Environment) : Prop where
  gone : e'.broker.listing? t = none
  spared : e.broker.Spares t e'.broker
  /-- No record is taken out but from the party's own dossier. -/
  dossiers : e'.dossiers = p.dossier?.elim e.dossiers fun n => changeIn e.dossiers n (·.without t)
  history : e'.history = e.history ++ [.withdrawn t]
  same : e' = { e with
    broker := e'.broker, dossiers := e'.dossiers, history := e'.history, log := e'.log }

theorem withdraw_error {err : RegistryError} (hname : Keyed.get? e.tickets name = some t)
    (hw : e.broker.withdraw t = .error err) : e.withdraw p name = (.failed (.registry err), e) := by
  simp only [withdraw, hname, withdrawTicket, hw, Except.map]

/-- Withdrawing what nobody refers to takes it out, and says so. -/
theorem withdraw_idle (hb : e.broker.WellFormed) (hname : Keyed.get? e.tickets name = some t)
    (hidle : e.broker.Idle t) :
    (e.withdraw p name).1 = .done ∧ e.TakesOut p t (e.withdraw p name).2 := by
  obtain ⟨b, hw⟩ := hb.idle_iff.mp hidle
  obtain ⟨hspared, hgone⟩ := (hb.confined t).withdrawn b hw
  simp only [withdraw, hname, withdrawTicket, hw, Except.map, forget]
  cases hp : p.dossier? with
  | _ => exact ⟨trivial, hgone, hspared, by rw [hp]; rfl, rfl, rfl⟩

/-- A ticket is refused unless nobody refers to what it names, whoever has published that. -/
theorem refuses_iff (hb : e.broker.WellFormed) : e.Refuses n t ↔ ¬ e.broker.Idle t := by
  constructor
  · intro hrefused hidle
    obtain ⟨err, heq⟩ := hrefused .host [("", t)] "" rfl
    have hdone : ((e.naming [("", t)]).perform ⟨.host, .dossier n⟩ (.withdraw "")).1 = .done :=
      (withdraw_idle (e := e.naming [("", t)]) hb rfl hidle).1
    simp [heq] at hdone
  · intro hbusy home tickets name hname
    cases hw : e.broker.withdraw t with
    | error err => exact ⟨err, withdraw_error hname hw⟩
    | ok b => exact absurd (hb.idle_iff.mpr ⟨b, hw⟩) hbusy

/-- What a reference in a slot covers is in use. -/
theorem Sound.not_idle {gone : List Ticket} {x : SlotKey × Hold} (hs : e.Sound gone) (hx : x ∈ e.slots)
    (ht : t ∈ x.2.tickets) : ¬ e.broker.Idle t := by
  rintro ⟨y, hy, hzero⟩
  have hpos : 0 < e.broker.refs t := hs.balanced.exact.refs_pos (List.mem_map_of_mem hx) ht
  have hu : e.broker.usage? t = some y.usage := by rw [Broker.usage?_eq_map, hy, Option.map_some]
  rw [Broker.refs_eq, Broker.held?_of_usage? hu] at hpos
  simp [hzero] at hpos

end Environment

/-- Whoever acts through the dossier of an instance, be it in a hook or otherwise, can withdraw
whatever nobody refers to, and only that, whoever has published it: the registration is gone then,
and the record of it stays with whoever has published it through another dossier. -/
theorem Reachable.withdrawals_unguarded (hr : Reachable r) (he : r.Visits e) :
    (e.Guarded ↔ ∀ d ∈ e.dossiers, ∀ t, e.broker.Idle t → .published (some d.member) t ∈ e.history) ∧
    ∀ n t, (e.Refuses n t ↔ ¬ e.broker.Idle t) ∧
      (e.broker.Idle t → ∀ home tickets name, Keyed.get? tickets name = some t →
        ((e.naming tickets).perform ⟨home, .dossier n⟩ (.withdraw name)).1 = .done ∧
        (e.naming tickets).TakesOut ⟨home, .dossier n⟩ t
          ((e.naming tickets).perform ⟨home, .dossier n⟩ (.withdraw name)).2) ∧
      ∀ x ∈ e.slots, t ∈ x.2.tickets → e.Refuses n t := by
  obtain ⟨gone, hs⟩ := hr.visits_stand he
  have hwf := hs.wellFormed
  have hrefuses : ∀ n t, e.Refuses n t ↔ ¬ e.broker.Idle t := fun n t => Environment.refuses_iff hwf
  refine ⟨?_, fun n t => ⟨hrefuses n t, fun hidle home tickets name hname => ?_, fun x hx ht => ?_⟩⟩
  · simp only [Environment.Guarded, hrefuses, not_imp_not]
  · exact Environment.withdraw_idle (e := e.naming tickets) hwf hname hidle
  · exact (hrefuses n t).mpr (hs.not_idle hx ht)

/-! ## A run -/

/-- A module that publishes a number and an advisor when it is loaded. -/
def keeper : Blueprint :=
  plain "keeper"
    { load := .perform (.publishInterface (.value ⟨"chat"⟩ false 0) (some "t")) fun _ =>
        .perform (.publishAdvisor (.permit true "asked") 0 none) .settle }

/-- A module that withdraws what another has published when it is loaded, and looks at what else
there is. -/
def poacher : Blueprint :=
  plain "poacher"
    { load := .perform (.withdraw "t") fun _ =>
        .perform (.panel .bannerPermit (some "seats")) fun _ => .perform (.release "seats") .settle }

/-- The one has been loaded, and the other is there to be loaded. -/
def poaching : Rack := Session.after (.offering [keeper, poacher]) [.call (.add "keeper" none)]

theorem poaching_reachable : Reachable poaching := (Reachable.offering _).after _

/-- What is going on while the other is loaded. -/
def poachingMoments : List Moment := Session.moments poaching (.call (.add "poacher" none))

theorem poaching_visits {x : Moment} (hx : x ∈ poachingMoments) : poaching.Visits x.env :=
  Or.inr ⟨_, x, hx, rfl⟩

/-- The other withdraws what the one has published, and that has it on record ever after. -/
theorem poaching_withdrawn :
    Reachable poaching ∧ ∃ e, poaching.Visits e ∧
      e.history = [.published (some 0) (.interface ⟨"chat"⟩ 1),
        .published (some 0) (.advisor ⟨"banner-advisor"⟩ 1)] ∧
      e.broker.ownerOf (.interface ⟨"chat"⟩ 1) = some "keeper" ∧
      (e.perform (.member 1) (.withdraw "t")).1 = .done ∧
      (e.perform (.member 1) (.withdraw "t")).2.broker.ownerOf (.interface ⟨"chat"⟩ 1) = none ∧
      (Session.step poaching (.call (.add "poacher" none))).2.env.ticketsOf 0 =
        [.interface ⟨"chat"⟩ 1, .advisor ⟨"banner-advisor"⟩ 1] ∧
      ¬ e.Guarded := by
  have hfirst : ∃ d ∈ (poachingMoments.head (by decide)).env.dossiers, d.member = 1 :=
    ⟨_, List.mem_cons_of_mem _ (List.mem_singleton_self _), rfl⟩
  refine ⟨poaching_reachable, _, poaching_visits (List.head_mem (by decide)), rfl, rfl, rfl, rfl, rfl,
    fun hguarded => ?_⟩
  obtain ⟨d, hd, hone⟩ := hfirst
  obtain ⟨err, heq⟩ := hguarded d hd (.interface ⟨"chat"⟩ 1) (by rw [hone]; decide)
    (.member 1) [("t", .interface ⟨"chat"⟩ 1)] "t" rfl
  rw [hone] at heq
  have hdone : Reply.done = .failed (.registry err) := congrArg Prod.fst heq
  cases hdone

/-- It can also withdraw the advisor, whose ticket it reads off the panel, but only when it has given
the panel back. -/
theorem withdrawals_unguarded_poaching :
    Reachable poaching ∧ ∃ e e', poaching.Visits e ∧ poaching.Visits e' ∧
      (∃ x ∈ e.slots, .advisor ⟨"banner-advisor"⟩ 1 ∈ x.2.tickets) ∧
      e.Refuses 1 (.advisor ⟨"banner-advisor"⟩ 1) ∧
      ¬ e'.Refuses 1 (.advisor ⟨"banner-advisor"⟩ 1) ∧
      ((e'.naming [("seat", .advisor ⟨"banner-advisor"⟩ 1)]).perform (.member 1)
        (.withdraw "seat")).1 = .done := by
  let looking := poachingMoments.get ⟨2, by decide⟩
  let resting := poachingMoments.get ⟨3, by decide⟩
  have hlooking : poaching.Visits looking.env := poaching_visits (List.get_mem _ _)
  have hresting : poaching.Visits resting.env := poaching_visits (List.get_mem _ _)
  have hseat : ∃ x ∈ looking.env.slots, .advisor ⟨"banner-advisor"⟩ 1 ∈ x.2.tickets :=
    ⟨_, List.mem_singleton_self _, List.mem_singleton_self _⟩
  have hidle : resting.env.broker.Idle (.advisor ⟨"banner-advisor"⟩ 1) := ⟨_, rfl, rfl⟩
  obtain ⟨x, hx, ht⟩ := hseat
  obtain ⟨hrefuses, hdone, -⟩ := (poaching_reachable.withdrawals_unguarded hresting).2 1
    (.advisor ⟨"banner-advisor"⟩ 1)
  refine ⟨poaching_reachable, _, _, hlooking, hresting, ⟨x, hx, ht⟩, ?_, ?_, ?_⟩
  · exact ((poaching_reachable.withdrawals_unguarded hlooking).2 1 _).2.2 x hx ht
  · exact fun hrefused => hrefuses.mp hrefused hidle
  · exact (hdone hidle (.member 1) _ "seat" rfl).1

end Backplane
