import Backplane.Proofs.Registry.Consultation
import Backplane.Proofs.Session.Moments
/-!
# `Backplane.Proofs.Session.Consultations`: what consulting leaves behind

To consult is to take a panel, to ask its seats in turn, perhaps not all of them, and to give the
panel back.  Whoever is asked may deal with the registries in the meantime, may take references
himself and consult others; if in the end exactly those references are out that were out before he
was asked, he repays.  Consulting those who repay is itself such a dealing.

    lookup that fails                       the broker is the same
    award, banner                           nothing changes but services and the journal
    whatever consultation of who repays     no count changes

Counts are compared for every ticket, of present registrations as of departed ones.

A panel is an `AdvisorSnapshot`, an award that of `award_kill`, a banner that of `banner_allowed`.
-/
namespace Backplane

/-! ## Taking and giving back at once -/

namespace Broker

variable {b b' : Broker} {h : Hold}

/-- What is taken and then given back leaves the broker as it was. -/
theorem Takes.giveBack_eq (ht : b.Takes h b') (hb : b.WellFormed) : b'.giveBack h = (.ok (), b) := by
  have hraised : b' = b.revise (only h.tickets Usage.raise) := ht.eq hb
  subst hraised
  have hout : ∀ t ∈ h.tickets, 0 < (b.revise (only h.tickets Usage.raise)).refs t := by
    intro t hmem
    rw [refs_raise (ht.hidden? hb), if_pos hmem]
    omega
  rw [hb.revise.giveBack_eq (ht.nodup hb) hout, revise_revise]
  refine congrArg (Prod.mk (Except.ok ())) (hb.revise_eq_self ?_)
  intro t
  rw [held?_revise]
  cases b.held? t with
  | none => rfl
  | some u =>
      simp only [Option.map_some, only, Option.some.injEq]
      split
      · exact Usage.lower_raise u
      · rfl

end Broker

/-! ## Dealings that repay -/

namespace Scene

variable {s s' s'' : Scene} {home : SlotHome} {t : Ticket}

/-- The references that are out, in hand or in slots. -/
def out (s : Scene) : List Hold := s.hand ++ s.slots.map (·.2)

/-- Whether whoever has his slots in a place may be at work on a scene. -/
def Admits (s : Scene) (home : SlotHome) : Prop := ∀ n, home = .member n → n < s.nextMember

/-- A change made by somebody, whoever he is. -/
def Deals (s s' : Scene) : Prop := ∃ home, s.Admits home ∧ Move home s s'

/-- Any number of changes, after which the references are out that were out before. -/
structure Repays (s s' : Scene) : Prop where
  dealings : Relation.ReflTransGen Deals s s'
  out : s'.out.Perm s.out

theorem Balanced.deals (hs : s.Balanced) (hd : Relation.ReflTransGen Deals s s') : s'.Balanced := by
  induction hd with
  | refl => exact hs
  | tail _ hlast ih =>
      obtain ⟨home, hadmits, hmove⟩ := hlast
      exact ih.move hmove hadmits

theorem nextMember_move (hm : Move home s s') : s'.nextMember = s.nextMember := by
  cases hm <;> rfl

/-- Whatever one party does is a dealing. -/
theorem deals_of_moves (hm : Moves home s s') (hadmits : s.Admits home) :
    Relation.ReflTransGen Deals s s' ∧ s'.Admits home := by
  induction hm with
  | refl => exact ⟨.refl, hadmits⟩
  | tail _ hlast ih =>
      obtain ⟨hdeals, hstill⟩ := ih
      refine ⟨hdeals.tail ⟨home, hstill, hlast⟩, ?_⟩
      intro n hn
      rw [nextMember_move hlast]
      exact hstill n hn

/-- Counts are the references that are out, so who repays leaves every count as it was. -/
theorem Repays.refs (hr : s.Repays s') (hs : s.Balanced) : s'.broker.refs t = s.broker.refs t := by
  have hs' : s'.Balanced := hs.deals hr.dealings
  have hafter : s'.broker.refs t = s'.out.countP fun h => t ∈ h.tickets := hs'.exact.count t
  have hbefore : s.broker.refs t = s.out.countP fun h => t ∈ h.tickets := hs.exact.count t
  rw [hafter, hbefore]
  exact hr.out.countP_eq _

theorem Repays.refl (s : Scene) : s.Repays s := ⟨.refl, .refl _⟩

theorem Repays.trans (hr : s.Repays s') (hr' : s'.Repays s'') : s.Repays s'' :=
  ⟨hr.dealings.trans hr'.dealings, hr'.out.trans hr.out⟩

end Scene

/-! ## Consultations -/

/-- How somebody with a seat answers, and what he makes of the environment meanwhile. -/
abbrev Advice (α : Type) := Seat → Environment → α × Environment

/-- Whether whoever is asked repays, whatever others have in hand. -/
def Advice.Faithful {α : Type} (ask : Advice α) : Prop :=
  ∀ (seat : Seat) (env : Environment) (hand : List Hold), (env.scene hand).Balanced →
    (env.scene hand).Repays ((ask seat env).2.scene hand)

namespace Environment

variable {α : Type} {ask : Advice α} {settles : α → Bool} {k : Contract} {kill : Kill}
  {env env' : Environment} {hand : List Hold} {h : Hold} {b : Broker} {seats : List Seat}
  {s : Option Service}

/-- Asks seats in turn, until an answer settles the matter. -/
def askEach (ask : Advice α) (settles : α → Bool) : List Seat → Environment → List α × Environment
  | [], env => ([], env)
  | seat :: rest, env =>
    let one := ask seat env
    if settles one.1 then ([one.1], one.2)
    else
      let more := askEach ask settles rest one.2
      (one.1 :: more.1, more.2)

/-- Consults the advisors of a contract: the answers that were given, in order. -/
def consult (ask : Advice α) (settles : α → Bool) (k : Contract) (env : Environment) :
    Except RegistryError (List α) × Environment :=
  let r := env.broker.panel env.alive k
  let taken := { env with broker := r.2 }
  match r.1 with
  | .error e => (.error e, taken)
  | .ok p =>
    let all := askEach ask settles p.seats taken
    (.ok all.1, all.2.giveUp (.panel p))

/-- What a scorer says about a kill. -/
def scoring (kill : Kill) : Advice Award := fun seat env => env.score kill env.services[seat.service]?

/-- What is said about a banner. -/
def permitting : Advice Bool := fun seat env => env.permit env.services[seat.service]?

theorem askEach_scoring : askEach (scoring kill) (fun _ => false) seats env = scores kill seats env := by
  induction seats generalizing env with
  | nil => rfl
  | cons seat seats ih =>
      simp only [askEach, scores, Bool.false_eq_true, if_false, ih]
      rfl

/-- An award is a consultation of all scorers. -/
theorem award_eq (kill : Kill) (env : Environment) : env.award kill =
    ((match (env.consult (scoring kill) (fun _ => false) .killPoints).1 with
      | .error e => .failed (.registry e)
      | .ok awards => .award (.total awards)),
      (env.consult (scoring kill) (fun _ => false) .killPoints).2) := by
  rw [award, consult]
  cases (env.broker.panel env.alive .killPoints).1 with
  | error e => rfl
  | ok p => simp only [askEach_scoring]

theorem askEach_permitting :
    ((askEach permitting (!·) seats env).1.all id, (askEach permitting (!·) seats env).2)
      = permits seats env := by
  induction seats generalizing env with
  | nil => rfl
  | cons seat seats ih =>
      rw [askEach, permits]
      cases ha : (env.permit env.services[seat.service]?).1 with
      | true => simp [permitting, ha, ← ih]
      | false => simp [permitting, ha]

/-- A banner is judged by a consultation that ends with the first refusal. -/
theorem banner_eq (env : Environment) : env.banner =
    ((match (env.consult permitting (!·) .bannerPermit).1 with
      | .error e => .failed (.registry e)
      | .ok answers => .flag (some (answers.all id))),
      (env.consult permitting (!·) .bannerPermit).2) := by
  rw [banner, consult]
  cases (env.broker.panel env.alive .bannerPermit).1 with
  | error e => rfl
  | ok p => simp only [← askEach_permitting]

/-! ## Whoever repays may be consulted -/

theorem askEach_repays (hf : ask.Faithful) (hb : (env.scene hand).Balanced) :
    (env.scene hand).Repays ((askEach ask settles seats env).2.scene hand) := by
  induction seats generalizing env with
  | nil => exact .refl _
  | cons seat seats ih =>
      have hone : (env.scene hand).Repays ((ask seat env).2.scene hand) := hf seat env hand hb
      rw [askEach]
      split
      · exact hone
      · exact hone.trans (ih (hb.deals hone.dealings))

/-- A lookup that fails leaves everything as it was. -/
theorem panel_failed {e : RegistryError} (hb : env.broker.WellFormed)
    (hp : (env.broker.panel env.alive k).1 = .error e) :
    { env with broker := (env.broker.panel env.alive k).2 } = env := by
  rw [Broker.panel_error hb hp]

theorem admits_host : (env.scene hand).Admits .host := by
  intro n hn
  cases hn

/-- A panel is given back whatever was done with its seats. -/
theorem consult_repays (hf : ask.Faithful) (hb : (env.scene hand).Balanced) :
    (env.scene hand).Repays ((env.consult ask settles k).2.scene hand) := by
  rw [consult]
  cases hp : (env.broker.panel env.alive k).1 with
  | error e =>
      simp only [panel_failed hb.exact.wellFormed hp]
      exact .refl _
  | ok p =>
      let taken : Environment := { env with broker := (env.broker.panel env.alive k).2 }
      let asked : Environment := (askEach ask settles p.seats taken).2
      have htake : Scene.Deals (env.scene hand) (taken.scene (.panel p :: hand)) :=
        ⟨.host, admits_host, take_move (.panel hp)⟩
      have htaken : (taken.scene (.panel p :: hand)).Balanced := hb.deals (.single htake)
      have hasked : (taken.scene (.panel p :: hand)).Repays (asked.scene (.panel p :: hand)) :=
        askEach_repays hf htaken
      have hmoves : Moves .host (asked.scene (.panel p :: hand)) ((asked.giveUp (.panel p)).scene hand) :=
        giveUp_moves
      obtain ⟨hgiven, -⟩ := Scene.deals_of_moves hmoves admits_host
      refine ⟨.head htake (hasked.dealings.trans hgiven), ?_⟩
      have hout : (asked.scene (.panel p :: hand)).out.Perm (taken.scene (.panel p :: hand)).out :=
        hasked.out
      have hrest : (asked.scene hand).out.Perm (env.scene hand).out := hout.cons_inv
      show (hand ++ (asked.giveUp (.panel p)).slots.map (·.2)).Perm _
      rw [aloof_slots.giveUp]
      exact hrest

/-- Whoever makes moves with slots as they were in the end repays. -/
theorem repays_of_moves (hm : Moves .host (env.scene hand) (env'.scene hand))
    (hslots : env'.slots = env.slots) : (env.scene hand).Repays (env'.scene hand) := by
  refine ⟨(Scene.deals_of_moves hm admits_host).1, ?_⟩
  show (hand ++ env'.slots.map (·.2)).Perm (hand ++ env.slots.map (·.2))
  rw [hslots]

/-! ## Scorers and permits -/

/-- Whether nothing has changed but services and the journal. -/
def Undisturbed (env env' : Environment) : Prop :=
  env' = { env with services := env'.services, journal := env'.journal }

theorem Undisturbed.trans {env'' : Environment} (h : env.Undisturbed env')
    (h' : env'.Undisturbed env'') : env.Undisturbed env'' := by
  rw [Undisturbed, h', h]

theorem giveUp_eq (hg : env.broker.giveBack h = (.ok (), b)) :
    env.giveUp h = { env with broker := b } := by
  rw [giveUp, hg]

/-- A lease for the time of a draw leaves nothing behind but another generator. -/
theorem withGenerator_eq {f : Xorshift → α × Xorshift} {x : Lease × Broker}
    (hb : env.broker.WellFormed) (hl : env.broker.lease env.alive .generator = .ok x) :
    env.withGenerator f = .ok ((f (env.generatorOf x.1.service)).1,
      { env with
        services :=
          env.services.set x.1.service (.generator (f (env.generatorOf x.1.service)).2) }) := by
  have hback : x.2.giveBack (.lease x.1) = (.ok (), env.broker) :=
    (Broker.Takes.lease hl).giveBack_eq hb
  simp only [withGenerator, hl, Except.map]
  rw [giveUp_eq hback]

theorem withGenerator_undisturbed {f : Xorshift → α × Xorshift} {r : α × Environment}
    (hb : env.broker.WellFormed) (hg : env.withGenerator f = .ok r) : env.Undisturbed r.2 := by
  cases hl : env.broker.lease env.alive .generator with
  | error e => simp [withGenerator, hl, Except.map] at hg
  | ok x =>
      rw [withGenerator_eq hb hl, Except.ok.injEq] at hg
      subst hg
      rfl

theorem score_undisturbed (hb : env.broker.WellFormed) : env.Undisturbed (env.score kill s).2 := by
  unfold score
  split
  · rfl
  · rfl
  · rfl
  · split
    · next hg => exact withGenerator_undisturbed hb hg
    · rfl
  · rfl

theorem permit_undisturbed : env.Undisturbed (env.permit s).2 := by
  unfold permit
  split <;> rfl

theorem askEach_undisturbed
    (hask : ∀ (seat : Seat) (env : Environment), env.broker.WellFormed →
      env.Undisturbed (ask seat env).2)
    (hb : env.broker.WellFormed) : env.Undisturbed (askEach ask settles seats env).2 := by
  induction seats generalizing env with
  | nil => rfl
  | cons seat seats ih =>
      have hone : env.Undisturbed (ask seat env).2 := hask seat env hb
      rw [askEach]
      split
      · exact hone
      · have hstill : (ask seat env).2.broker.WellFormed := by
          rw [hone]
          exact hb
        exact hone.trans (ih hstill)

/-- If nobody on a panel disturbs anything, the panel is given back as it was taken. -/
theorem consult_undisturbed
    (hask : ∀ (seat : Seat) (env : Environment), env.broker.WellFormed →
      env.Undisturbed (ask seat env).2)
    (hb : env.broker.WellFormed) : env.Undisturbed (env.consult ask settles k).2 := by
  rw [consult]
  cases hp : (env.broker.panel env.alive k).1 with
  | error e =>
      simp only [panel_failed hb hp]
      rfl
  | ok p =>
      let taken : Environment := { env with broker := (env.broker.panel env.alive k).2 }
      have htakes : env.broker.Takes (.panel p) taken.broker := .panel hp
      have htaken : taken.broker.WellFormed := by
        rw [htakes.eq hb]
        exact hb.revise
      have hasked : taken.Undisturbed (askEach ask settles p.seats taken).2 :=
        askEach_undisturbed hask htaken
      have hback : (askEach ask settles p.seats taken).2.broker.giveBack (.panel p) =
          (.ok (), env.broker) := by
        rw [hasked]
        exact htakes.giveBack_eq hb
      show env.Undisturbed ((askEach ask settles p.seats taken).2.giveUp (.panel p))
      rw [giveUp_eq hback, hasked]
      rfl

theorem award_undisturbed (hb : env.broker.WellFormed) : env.Undisturbed (env.award kill).2 := by
  rw [award_eq]
  exact consult_undisturbed (fun _ _ hb' => score_undisturbed hb') hb

theorem banner_undisturbed (hb : env.broker.WellFormed) : env.Undisturbed env.banner.2 := by
  rw [banner_eq]
  exact consult_undisturbed (fun _ _ _ => permit_undisturbed) hb

/-- A scorer repays, the one that looks a generator up included. -/
theorem scoring_faithful : (scoring kill).Faithful := by
  intro seat env hand hb
  refine repays_of_moves score_moves ?_
  have hscore : env.Undisturbed (env.score kill env.services[seat.service]?).2 :=
    score_undisturbed hb.exact.wellFormed
  rw [scoring, hscore]

theorem permitting_faithful : permitting.Faithful := by
  intro seat env hand _
  rw [permitting, permit_scene]
  exact .refl _

end Environment

/-- A lookup fails exactly when a registration of the capability has another shape than the one that
is looked up. -/
theorem Broker.WellFormed.panel_error_iff {b : Broker} {alive : ServiceId → Bool} {k : Contract}
    (hb : b.WellFormed) :
    (∃ err, (b.panel alive k).1 = .error err) ↔
      ∃ x ∈ b.advisors.listOf k.capability, x.contract ≠ k := by
  rw [panel, hb.advisors.panel_eq]
  split
  · next hall =>
      constructor
      · rintro ⟨err, herr⟩
        simp at herr
      · rintro ⟨x, hx, hne⟩
        exact absurd (hall x hx) hne
  · next hnot =>
      constructor
      · intro _
        simpa using hnot
      · intro _
        exact ⟨_, rfl⟩

theorem Broker.WellFormed.panel_error_eq {b : Broker} {alive : ServiceId → Bool} {k : Contract}
    {err : RegistryError} (hb : b.WellFormed) (hp : (b.panel alive k).1 = .error err) :
    err = .shapeMismatch k.capability := by
  rw [panel, hb.advisors.panel_eq] at hp
  split at hp
  · simp at hp
  · exact (Except.error.inj hp).symm

open Environment in
/-- Whatever there is to be consulted, at any moment of any step: a lookup that fails, which it does
if there is an advisor of another shape, wherever he stands, leaves the registries as they were; so
do an award and the judgement of a banner, whatever comes of them, and no reference fails to be given
back; and a consultation of any advisors who repay changes no count, and repays in its turn. -/
theorem Reachable.pins_nothing {r : Rack} {e : Environment} (hr : Reachable r) (he : r.Visits e) :
    (∀ alive k,
      ((∃ err, (e.broker.panel alive k).1 = .error err) ↔
        ∃ x ∈ e.broker.advisors.listOf k.capability, x.contract ≠ k) ∧
      ∀ err, (e.broker.panel alive k).1 = .error err →
        err = .shapeMismatch k.capability ∧ (e.broker.panel alive k).2 = e.broker) ∧
    (∀ kill, (e.award kill).2.broker = e.broker ∧ (e.award kill).2.log = e.log) ∧
    (e.banner.2.broker = e.broker ∧ e.banner.2.log = e.log) ∧
    (∀ kill, (scoring kill).Faithful) ∧ permitting.Faithful ∧
    ∀ {α : Type} (ask : Advice α) (settles : α → Bool) (k : Contract), ask.Faithful →
      (∀ t, (e.consult ask settles k).2.broker.refs t = e.broker.refs t) ∧
      Advice.Faithful fun _ env => env.consult ask settles k := by
  obtain ⟨gone, hs⟩ := hr.visits_stand he
  have hwf : e.broker.WellFormed := hs.wellFormed
  have hsame : ∀ {e' : Environment}, e.Undisturbed e' → e'.broker = e.broker ∧ e'.log = e.log := by
    intro e' he'
    rw [he']
    exact ⟨rfl, rfl⟩
  refine ⟨fun alive k => ⟨hwf.panel_error_iff, fun err herr => ?_⟩,
    fun kill => hsame (award_undisturbed hwf), hsame (banner_undisturbed hwf),
    fun _ => scoring_faithful, permitting_faithful, fun ask settles k hf => ⟨fun t => ?_, ?_⟩⟩
  · exact ⟨hwf.panel_error_eq herr, Broker.panel_error hwf herr⟩
  · exact (consult_repays hf hs.balanced).refs hs.balanced
  · intro _ env hand hb
    exact consult_repays hf hb

/-! ## A run -/

/-- A module that publishes a generator when it is loaded, and asks for an award when it goes. -/
def dice : Blueprint :=
  plain "dice"
    { load := .perform (.publishInterface (.generator (.ofSeed 7)) (some "dice")) .settle
      unload := .perform (.award ⟨30, 3⟩) .settle }

/-- The generator is there, and two scorers, of whom the second draws lots. -/
def raffle : Rack :=
  Session.after (.offering [dice])
    [.act "host" (.publishAdvisor (.scorer .bounty) 0 (some "bounty")),
      .act "host" (.publishAdvisor (.scorer (.lottery 4 28)) 5 (some "lots")),
      .call (.add "dice" none)]

/-- Somebody has published something else among the scorers, behind both. -/
def raffleSpoilt : Rack :=
  Session.after raffle [.act "host" (.publishAdvisor (.value ⟨"kill-points"⟩ false 0) 9 (some "odd"))]

theorem raffle_reachable : Reachable raffle := (Reachable.offering _).after _

theorem raffleSpoilt_reachable : Reachable raffleSpoilt := raffle_reachable.after _

/-- What is going on while the generator's module goes. -/
def raffleMoments : List Moment := Session.moments raffle (.call (.unload "dice"))

open Environment in
/-- While the generator's module goes, its generator is retired, and who draws lots has none to draw
from; later, whoever looks the scorers up takes a reference on both before he comes upon the third.
Neither leaves anything behind. -/
theorem pins_nothing_raffle :
    (Reachable raffle ∧ ∃ e, raffle.Visits e ∧
      e.broker.hidden? (.interface ⟨"prng"⟩ 1) = some true ∧
      (e.award ⟨30, 3⟩).1 = .award ⟨30, none⟩ ∧ (e.award ⟨30, 3⟩).2.broker = e.broker ∧
      (scoring ⟨30, 3⟩).Faithful ∧
      ∀ t, (e.consult (scoring ⟨30, 3⟩) (·.prize.isSome) .killPoints).2.broker.refs t =
        e.broker.refs t) ∧
    (Reachable raffleSpoilt ∧ raffleSpoilt.Visits raffleSpoilt.env ∧
      let b := raffleSpoilt.env.broker
      (Advisors.search raffleSpoilt.env.alive .killPoints
        (b.advisors.listOf ⟨"kill-points"⟩)).seats.length = 2 ∧
      (b.panel raffleSpoilt.env.alive .killPoints).1 = .error (.shapeMismatch ⟨"kill-points"⟩) ∧
      (b.panel raffleSpoilt.env.alive .killPoints).2 = b ∧
      (raffleSpoilt.env.award ⟨30, 3⟩).1 =
        .failed (.registry (.shapeMismatch ⟨"kill-points"⟩)) ∧
      (raffleSpoilt.env.award ⟨30, 3⟩).2.broker = b) := by
  let going := raffleMoments.get ⟨1, by decide⟩
  have hgoing : raffle.Visits going.env := Or.inr ⟨_, going, List.get_mem _ _, rfl⟩
  have hspoilt : raffleSpoilt.Visits raffleSpoilt.env := Or.inl rfl
  obtain ⟨-, haward, -, hscoring, -, hconsult⟩ := raffle_reachable.pins_nothing hgoing
  obtain ⟨hpanel, hvain, -⟩ := raffleSpoilt_reachable.pins_nothing hspoilt
  have herror : (raffleSpoilt.env.broker.panel raffleSpoilt.env.alive .killPoints).1 =
      .error (.shapeMismatch ⟨"kill-points"⟩) := rfl
  refine ⟨⟨raffle_reachable, going.env, hgoing, rfl, ?_, (haward _).1, hscoring _, ?_⟩,
    raffleSpoilt_reachable, hspoilt, rfl, herror, ?_, rfl, (hvain _).1⟩
  · rfl
  · exact (hconsult _ _ .killPoints (hscoring _)).1
  · exact ((hpanel _ _).2 _ herror).2

end Backplane
