import Backplane.Proofs.Contract.Scoring
import Backplane.Proofs.Session.Contracts
import Mathlib.Data.Set.List
/-!
# `Backplane.Proofs.Session.Advice`: what comes of advice

Whoever is to be consulted at some moment is listed then, visible and alive.  If everybody listed is
of the contract that is looked up, exactly those are asked, each once and in order:

    award      everybody, and the awards come to a total
    banner     until somebody refuses

If somebody listed is not, nobody is asked.  The journal tells who has been asked, as far as he
shows in it, and the generator how often it has been drawn from.

An award is what `award_kill` yields, a banner what `banner_allowed` says.
-/
namespace Backplane

/-! ## Scorers -/

namespace Scorer

variable {kill : Kill} {g : Option Xorshift}

/-- The award of a scorer, and the generator as it is afterwards, if there is one to draw from. -/
def award (kill : Kill) : Scorer → Option Xorshift → Award × Option Xorshift
  | bounty, g => (bountyAward kill, g)
  | perFlag points, g => (flagAward points kill, g)
  | fixed award _, g => (award, g)
  | lottery chance prizes, some g =>
    let drawn := prizeAward chance prizes g
    (drawn.1, some drawn.2)
  | lottery _ _, none => ({}, none)

/-- The awards of scorers in order, each of whom draws from what those before have left. -/
def awards (kill : Kill) : List Scorer → Option Xorshift → List Award × Option Xorshift
  | [], g => ([], g)
  | s :: rest, g =>
    let one := s.award kill g
    let more := awards kill rest one.2
    (one.1 :: more.1, more.2)

/-- What a scorer notes when he is asked. -/
def note? (kill : Kill) : Scorer → Option JournalEntry
  | fixed _ tag => some (.killAsked tag kill)
  | _ => none

end Scorer

/-- What a service is follows from its contract, if the contract is not one for values. -/
theorem Service.of_contract (s : Service) :
    (s.contract = .generator → ∃ g, s = .generator g) ∧
    (s.contract = .killPoints → ∃ x, s = .scorer x) ∧
    (s.contract = .bannerPermit → ∃ allow tag, s = .permit allow tag) := by
  cases s with
  | value c alternate n =>
      cases alternate <;>
        simp [contract, Contract.generator, Contract.killPoints, Contract.bannerPermit]
  | _ =>
      simp [contract, Contract.generator, Contract.wordFilter, Contract.killPoints,
        Contract.bannerPermit]

/-! ## Who is asked -/

namespace Environment

variable {e e' : Environment} {k : Contract} {kill : Kill} {s : Scorer} {b : Broker} {h : Hold}

/-- Whether everybody who is listed under the capability of a contract is of that contract. -/
def Fits (e : Environment) (k : Contract) : Prop :=
  ∀ x ∈ e.broker.advisors.listOf k.capability, x.contract = k

/-- Whoever is listed under the capability of a contract, visible and alive, in order. -/
def consulted (e : Environment) (k : Contract) : List (Registration Int) :=
  (e.broker.advisors.listOf k.capability).filter (Advisors.available e.alive)

/-- Whether registrations are those of whoever is to be consulted, in the order of consultation. -/
structure Consults (e : Environment) (k : Contract) (asked : List (Registration Int)) : Prop where
  order : asked.Pairwise Registration.Before
  members : ∀ x, x ∈ asked ↔ x ∈ e.broker.advisors.entries ∧
    x.contract.capability = k.capability ∧ x.usage.retired = false ∧ e.alive x.service = true

theorem consults (hb : e.broker.WellFormed) (k : Contract) : e.Consults k (e.consulted k) where
  order := hb.advisors.pairwise_listOf.filter _
  members := fun x => by
    simp only [consulted, Advisors.available, List.mem_filter, hb.advisors.mem_listOf,
      Bool.and_eq_true, Bool.not_eq_true', and_assoc]

/-- A panel of advisors who fit has whoever is to be consulted. -/
theorem Fits.panel (hf : e.Fits k) (hb : e.broker.WellFormed) : (e.broker.panel e.alive k).1 =
    .ok ⟨k, (e.consulted k).map Registration.seat⟩ :=
  hb.advisors.panel_eq.trans (if_pos hf)

theorem panel_of_not_fits (hb : e.broker.WellFormed) (hf : ¬ e.Fits k) :
    (e.broker.panel e.alive k).1 = .error (.shapeMismatch k.capability) :=
  hb.advisors.panel_eq.trans (if_neg hf)

/-- The services of advisors who fit are of their contract. -/
theorem Regular.kinds_consulted (hr : e.Regular) (hb : e.broker.WellFormed) (hf : e.Fits k)
    {x : Registration Int} (hx : x ∈ e.consulted k) :
    ∃ s, e.services[x.service]? = some s ∧ s.contract = k := by
  have hlisted := (List.mem_filter.mp hx).1
  have hkind := hr.advisor (hb.advisors.mem_listOf.mp hlisted).1
  rw [hf x hlisted, getElem?_kinds] at hkind
  exact Option.map_eq_some_iff.mp hkind

/-! ## What a scorer does -/

/-- The generator that is there to be drawn from. -/
def generator? (e : Environment) : Option Xorshift :=
  match e.broker.interfaces.lease e.alive .generator with
  | .ok r => some (e.generatorOf r.1.service)
  | .error _ => none

/-- Whether everybody who was a scorer still is the same. -/
def KeepsScorers (e e' : Environment) : Prop :=
  ∀ (n : ServiceId) (s : Scorer), e.services[n]? = some (.scorer s) →
    e'.services[n]? = some (.scorer s)

/-- Whether asking scorers has given these awards and noted this, and left the generator and all
scorers as they should be. -/
structure Scores (e : Environment) (g : Option Xorshift) (notes : List JournalEntry)
    (e' : Environment) : Prop where
  generator : e'.generator? = g
  journal : e'.journal = e.journal ++ notes
  scorers : e.KeepsScorers e'

theorem generatorOf_set {n : ServiceId} {g : Xorshift} (hlt : n < e.services.length) :
    generatorOf { e with services := e.services.set n (.generator g) } n = g := by
  simp [generatorOf, hlt]

/-- A draw is made from the generator that is there, and leaves the next one. -/
theorem Regular.withGenerator {α : Type} {f : Xorshift → α × Xorshift} (hr : e.Regular)
    (hb : e.broker.WellFormed) :
    (∃ err, e.generator? = none ∧ e.withGenerator f = .error err) ∨
      ∃ g e', e.generator? = some g ∧ e.withGenerator f = .ok ((f g).1, e') ∧
        e.Scores (some (f g).2) [] e' := by
  cases hl : e.broker.interfaces.lease e.alive .generator with
  | error err =>
      refine Or.inl ⟨err, by rw [generator?, hl], ?_⟩
      simp [Environment.withGenerator, Broker.lease, hl, Except.map]
  | ok r =>
      obtain ⟨l, i⟩ := r
      have hlease : e.broker.lease e.alive .generator =
          .ok (l, { e.broker with interfaces := i }) := by
        rw [Broker.lease, hl, Except.map]
      obtain ⟨s, hs, hc⟩ := hr.leased hlease
      obtain ⟨g, rfl⟩ := s.of_contract.1 hc
      have hlt : l.service < e.services.length := (List.getElem?_eq_some_iff.mp hs).1
      have hg : e.generator? = some (e.generatorOf l.service) := by rw [generator?, hl]
      refine Or.inr ⟨_, _, hg, withGenerator_eq hb hlease, ?_, (List.append_nil _).symm, ?_⟩
      · show (match e.broker.interfaces.lease e.alive .generator with
          | .ok r => some _
          | .error _ => none) = _
        rw [hl]
        exact congrArg some (generatorOf_set hlt)
      · intro n s hn
        have hne : l.service ≠ n := fun heq => by
          rw [heq, hn] at hs
          simp at hs
        simpa [List.getElem?_set_ne hne] using hn

theorem KeepsScorers.refl (e : Environment) : e.KeepsScorers e := fun _ _ h => h

/-- A scorer does what he does by himself, with the generator that is there. -/
theorem Regular.scores_one (hr : e.Regular) (kill : Kill) (hb : e.broker.WellFormed) (s : Scorer) :
    (e.score kill (some (.scorer s))).1 = (s.award kill e.generator?).1 ∧
      e.Scores (s.award kill e.generator?).2 (s.note? kill).toList
        (e.score kill (some (.scorer s))).2 := by
  have hidle : e.Scores e.generator? [] e := ⟨rfl, (List.append_nil _).symm, .refl e⟩
  cases s with
  | bounty => exact ⟨rfl, hidle⟩
  | perFlag points => exact ⟨rfl, hidle⟩
  | fixed award tag => exact ⟨rfl, rfl, rfl, .refl e⟩
  | lottery chance prizes =>
      rw [Environment.score]
      rcases hr.withGenerator (f := prizeAward chance prizes) hb with
        ⟨err, hg, hw⟩ | ⟨g, e', hg, hw, hscores⟩
      · rw [hw]
        rw [hg] at hidle ⊢
        exact ⟨rfl, hidle⟩
      · rw [hw, hg]
        exact ⟨rfl, hscores⟩

/-- Whether seats are those of scorers. -/
def SeatsScorers (e : Environment) (seats : List Seat) (scorers : List Scorer) : Prop :=
  seats.map (fun seat => e.services[seat.service]?) = scorers.map fun s => some (.scorer s)

theorem SeatsScorers.keeps {seats : List Seat} {scorers : List Scorer}
    (h : e.SeatsScorers seats scorers) (hk : e.KeepsScorers e') :
    e'.SeatsScorers seats scorers := by
  induction seats generalizing scorers with
  | nil => simpa [SeatsScorers] using h
  | cons seat seats ih =>
      cases scorers with
      | nil => simp [SeatsScorers] at h
      | cons s scorers =>
          obtain ⟨hseat, hrest⟩ := List.cons.inj h
          exact congrArg₂ List.cons (hk _ _ hseat) (ih hrest)

/-- Scorers who are asked in turn do what they do by themselves. -/
theorem Regular.scores_all {seats : List Seat} {scorers : List Scorer} (hr : e.Regular)
    (kill : Kill) (hb : e.broker.WellFormed) (hseats : e.SeatsScorers seats scorers) :
    (scores kill seats e).1 = (Scorer.awards kill scorers e.generator?).1 ∧
      e.Scores (Scorer.awards kill scorers e.generator?).2 (scorers.filterMap (Scorer.note? kill))
        (scores kill seats e).2 := by
  induction seats generalizing e scorers with
  | nil =>
      obtain rfl : scorers = [] := by simpa [SeatsScorers] using hseats.symm
      exact ⟨rfl, rfl, (List.append_nil _).symm, .refl e⟩
  | cons seat seats ih =>
      cases scorers with
      | nil => simp [SeatsScorers] at hseats
      | cons s scorers =>
          obtain ⟨hseat, hrest⟩ := List.cons.inj hseats
          obtain ⟨hone, hgen, hjournal, hkeeps⟩ := hr.scores_one kill hb s
          obtain ⟨hnext, hwf⟩ := hr.score kill hb (some (.scorer s))
          obtain ⟨hmore, hgen', hjournal', hkeeps'⟩ :=
            ih hnext hwf (SeatsScorers.keeps hrest hkeeps)
          rw [hgen] at hmore hgen'
          have hseat : e.services[seat.service]? = some (.scorer s) := hseat
          simp only [Environment.scores, hseat, Scorer.awards, hone, hmore]
          refine ⟨trivial, hgen', ?_, fun n x hx => hkeeps' n x (hkeeps n x hx)⟩
          rw [hjournal', hjournal, List.append_assoc, List.filterMap_cons]
          cases s.note? kill <;> rfl

/-! ## Awards -/

theorem journal_giveUp : (e.giveUp h).journal = e.journal := by
  rw [giveUp]
  cases (e.broker.giveBack h).1 <;> rfl

/-- To give a panel back does not concern the generator. -/
theorem generator?_giveUp_panel {p : Panel} : (e.giveUp (.panel p)).generator? = e.generator? := by
  rw [giveUp]
  cases (e.broker.giveBack (.panel p)).1 <;> rfl

/-- Whether a kill is rewarded as it should be: whoever is to be consulted is a scorer, and is
asked; the total of the awards is the answer; and who notes that he is asked has done so once, and
whoever draws has drawn, in order. -/
structure Rewards (e : Environment) (kill : Kill) (asked : List (Registration Int))
    (scorers : List Scorer) (total : Award) : Prop where
  advisors : e.Consults .killPoints asked
  services : asked.map (fun x => e.services[x.service]?) = scorers.map fun s => some (.scorer s)
  reply : (e.award kill).1 = .award total
  totals : Award.Totals (Scorer.awards kill scorers e.generator?).1 total
  journal : (e.award kill).2.journal = e.journal ++ scorers.filterMap (Scorer.note? kill)
  generator : (e.award kill).2.generator? = (Scorer.awards kill scorers e.generator?).2

/-- Advisors who fit, by what they are. -/
theorem Regular.services_consulted {α : Type} {f : α → Service} (hr : e.Regular)
    (hb : e.broker.WellFormed) (hf : e.Fits k) (hk : ∀ s : Service, s.contract = k → ∃ a, f a = s) :
    ∃ as : List α, (e.consulted k).map (fun x => e.services[x.service]?) =
      as.map fun a => some (f a) := by
  have hall : (e.consulted k).map (fun x => e.services[x.service]?) ∈
      Set.range (List.map fun a => some (f a)) := by
    rw [Set.range_list_map]
    intro o ho
    obtain ⟨x, hx, rfl⟩ := List.mem_map.mp ho
    obtain ⟨s, hs, hc⟩ := hr.kinds_consulted hb hf hx
    obtain ⟨a, rfl⟩ := hk s hc
    exact ⟨a, hs.symm⟩
  obtain ⟨as, has⟩ := hall
  exact ⟨as, has.symm⟩

theorem Fits.award_eq (hf : e.Fits .killPoints) (hb : e.broker.WellFormed) :
    e.award kill = (.award (.total (scores kill ((e.consulted .killPoints).map Registration.seat)
        (e.seating .killPoints)).1),
      (scores kill ((e.consulted .killPoints).map Registration.seat)
        (e.seating .killPoints)).2.giveUp
          (.panel ⟨.killPoints, (e.consulted .killPoints).map Registration.seat⟩)) := by
  rw [award]
  simp only [hf.panel hb]
  rfl

theorem Regular.rewards (hr : e.Regular) (hb : e.broker.WellFormed) (hf : e.Fits .killPoints) :
    ∃ scorers total, e.Rewards kill (e.consulted .killPoints) scorers total := by
  obtain ⟨scorers, hscorers⟩ := hr.services_consulted (f := Service.scorer) hb hf fun s hc => by
    obtain ⟨x, rfl⟩ := s.of_contract.2.1 hc
    exact ⟨x, rfl⟩
  obtain ⟨hseating, hwf⟩ := hr.seating (k := .killPoints) hb
  have hseats : (e.seating .killPoints).SeatsScorers
      ((e.consulted .killPoints).map Registration.seat) scorers := by
    rw [SeatsScorers, List.map_map]
    exact hscorers
  obtain ⟨hawards, hgen, hjournal, -⟩ := hseating.scores_all kill hwf hseats
  refine ⟨scorers, _, consults hb _, hscorers, ?_, Award.totals_total _, ?_, ?_⟩
  · rw [hf.award_eq hb, hawards]
    rfl
  · rw [hf.award_eq hb]
    exact journal_giveUp.trans hjournal
  · rw [hf.award_eq hb]
    exact generator?_giveUp_panel.trans hgen

/-! ## Banners -/

/-- Whether a banner is judged as it should be: whoever is to be consulted says of himself whether
he allows it; it may be shown exactly if nobody refuses; and everybody is asked up to the first
refusal, in order, and nobody behind it. -/
structure Judges (e : Environment) (asked : List (Registration Int))
    (permits : List (Bool × String)) : Prop where
  advisors : e.Consults .bannerPermit asked
  services : asked.map (fun x => e.services[x.service]?) =
    permits.map fun p => some (.permit p.1 p.2)
  reply : e.banner.1 = .flag (some (permits.all (·.1)))
  journal :
    ((∀ p ∈ permits, p.1 = true) ∧
      e.banner.2.journal = e.journal ++ permits.map (.permitAsked ·.2)) ∨
    ∃ before refusal behind, permits = before ++ refusal :: behind ∧ (∀ p ∈ before, p.1 = true) ∧
      refusal.1 = false ∧
      e.banner.2.journal = e.journal ++ (before ++ [refusal]).map (.permitAsked ·.2)

/-- Those who are asked about a banner: everybody up to the first refusal. -/
def heard : List (Bool × String) → List (Bool × String)
  | [] => []
  | p :: rest => if p.1 then p :: heard rest else [p]

theorem heard_cases (permits : List (Bool × String)) :
    ((∀ p ∈ permits, p.1 = true) ∧ heard permits = permits) ∨
      ∃ before refusal behind, permits = before ++ refusal :: behind ∧ (∀ p ∈ before, p.1 = true) ∧
        refusal.1 = false ∧ heard permits = before ++ [refusal] := by
  induction permits with
  | nil => exact Or.inl ⟨List.forall_mem_nil _, rfl⟩
  | cons p permits ih =>
      cases hp : p.1 with
      | false =>
          exact Or.inr ⟨[], p, permits, rfl, List.forall_mem_nil _, hp, by simp [heard, hp]⟩
      | true =>
          rcases ih with ⟨hall, heq⟩ | ⟨before, refusal, behind, rfl, hbefore, hrefusal, heq⟩
          · exact Or.inl ⟨List.forall_mem_cons.mpr ⟨hp, hall⟩, by simp [heard, hp, heq]⟩
          · exact Or.inr ⟨p :: before, refusal, behind, rfl,
              List.forall_mem_cons.mpr ⟨hp, hbefore⟩, hrefusal, by simp [heard, hp, heq]⟩

theorem permits_all {seats : List Seat} {permits : List (Bool × String)}
    (hseats : seats.map (fun seat => e.services[seat.service]?) =
      permits.map fun p => some (.permit p.1 p.2)) :
    (Environment.permits seats e).1 = permits.all (·.1) ∧
      (Environment.permits seats e).2.journal =
        e.journal ++ (heard permits).map (.permitAsked ·.2) := by
  induction seats generalizing e permits with
  | nil =>
      obtain rfl : permits = [] := by simpa using hseats.symm
      exact ⟨rfl, (List.append_nil _).symm⟩
  | cons seat seats ih =>
      cases permits with
      | nil => simp at hseats
      | cons p permits =>
          obtain ⟨hseat, hrest⟩ := List.cons.inj hseats
          have hseat : e.services[seat.service]? = some (.permit p.1 p.2) := hseat
          rw [Environment.permits, hseat]
          cases hp : p.1 with
          | false => simp [permit, note, heard, hp]
          | true =>
              obtain ⟨hmore, hjournal⟩ := ih (e := e.note (.permitAsked p.2)) hrest
              simp only [permit, if_true, hmore, hjournal]
              simp [note, heard, hp]

theorem Fits.banner_eq (hf : e.Fits .bannerPermit) (hb : e.broker.WellFormed) :
    e.banner = (.flag (some (Environment.permits ((e.consulted .bannerPermit).map Registration.seat)
        (e.seating .bannerPermit)).1),
      (Environment.permits ((e.consulted .bannerPermit).map Registration.seat)
        (e.seating .bannerPermit)).2.giveUp
          (.panel ⟨.bannerPermit, (e.consulted .bannerPermit).map Registration.seat⟩)) := by
  rw [banner]
  simp only [hf.panel hb]
  rfl

theorem Regular.judges (hr : e.Regular) (hb : e.broker.WellFormed) (hf : e.Fits .bannerPermit) :
    ∃ permits, e.Judges (e.consulted .bannerPermit) permits := by
  obtain ⟨permits, hpermits⟩ :=
    hr.services_consulted (f := fun p : Bool × String => Service.permit p.1 p.2) hb hf fun s hc => by
      obtain ⟨allow, tag, rfl⟩ := s.of_contract.2.2 hc
      exact ⟨(allow, tag), rfl⟩
  have hseats : ((e.consulted .bannerPermit).map Registration.seat).map
      (fun seat => (e.seating .bannerPermit).services[seat.service]?) =
        permits.map fun p => some (.permit p.1 p.2) := by
    rw [List.map_map]
    exact hpermits
  obtain ⟨hreply, hjournal⟩ := permits_all hseats
  refine ⟨permits, consults hb _, hpermits, ?_, ?_⟩
  · rw [hf.banner_eq hb, hreply]
  · have hall : e.banner.2.journal = e.journal ++ (heard permits).map (.permitAsked ·.2) := by
      rw [hf.banner_eq hb]
      exact journal_giveUp.trans hjournal
    rcases heard_cases permits with ⟨hnone, heq⟩ | ⟨before, refusal, behind, hsplit, hbefore, href, heq⟩
    · exact Or.inl ⟨hnone, by rw [hall, heq]⟩
    · exact Or.inr ⟨before, refusal, behind, hsplit, hbefore, href, by rw [hall, heq]⟩

/-- If somebody does not fit nobody is asked, and nothing changes. -/
theorem award_of_not_fits (hb : e.broker.WellFormed) (hf : ¬ e.Fits .killPoints) :
    e.award kill = (.failed (.registry (.shapeMismatch Contract.killPoints.capability)), e) := by
  have hp := panel_of_not_fits hb hf
  rw [award]
  simp only [hp, panel_failed hb hp]

theorem banner_of_not_fits (hb : e.broker.WellFormed) (hf : ¬ e.Fits .bannerPermit) :
    e.banner = (.failed (.registry (.shapeMismatch Contract.bannerPermit.capability)), e) := by
  have hp := panel_of_not_fits hb hf
  rw [banner]
  simp only [hp, panel_failed hb hp]

end Environment

open Environment in
/-- Whatever advice there is, at any moment of any step.  As long as everybody who is published as a
scorer is one, a kill is rewarded as the scorers say who are visible and alive; if somebody is not,
the lookup says so, and nobody is asked.  It is the same with whoever is to allow a banner. -/
theorem Reachable.advice_combined {r : Rack} {e : Environment} (hr : Reachable r)
    (he : r.Visits e) :
    (∀ kill, (e.Fits .killPoints → ∃ asked scorers total, e.Rewards kill asked scorers total) ∧
      (¬ e.Fits .killPoints →
        e.award kill = (.failed (.registry (.shapeMismatch ⟨"kill-points"⟩)), e))) ∧
    (e.Fits .bannerPermit → ∃ asked permits, e.Judges asked permits) ∧
    (¬ e.Fits .bannerPermit →
      e.banner = (.failed (.registry (.shapeMismatch ⟨"banner-advisor"⟩)), e)) := by
  obtain ⟨gone, hs⟩ := hr.visits_stand he
  have hb : e.broker.WellFormed := hs.wellFormed
  have hregular : e.Regular := hr.visits_regular he
  exact ⟨fun kill => ⟨fun hf => ⟨_, hregular.rewards hb hf⟩, award_of_not_fits hb⟩,
    fun hf => ⟨_, hregular.judges hb hf⟩, banner_of_not_fits hb⟩

/-! ## A run -/

/-- A module that publishes a scorer when it is loaded. -/
def patron : Blueprint :=
  plain "patron"
    { load := .perform
        (.publishAdvisor (.scorer (.fixed ⟨1000, some 1⟩ "patron")) (-9) none) .settle }

/-- Scorers of several priorities, two of them of one, and one whose service is gone; and three who
are to allow banners. -/
def contest : Rack :=
  Session.after (.offering [patron])
    [.act "host" (.publishAdvisor (.scorer (.fixed ⟨3, some 7⟩ "late")) 5 (some "late")),
      .act "host"
        (.publishAdvisor (.scorer (.fixed ⟨mostPoints, none⟩ "early")) (-2) (some "early")),
      .act "host" (.publishAdvisor (.scorer (.fixed ⟨-5, some 9⟩ "later")) 5 (some "later")),
      .act "host" (.publishAdvisor (.scorer .bounty) 0 (some "bounty")),
      .act "host" (.publishAdvisor (.scorer (.fixed ⟨100, some 1⟩ "ghost")) 0 (some "ghost")),
      .dropInstance "ghost",
      .act "host" (.publishAdvisor (.permit true "unasked") 2 (some "unasked")),
      .act "host" (.publishAdvisor (.permit true "yes") 0 (some "yes")),
      .act "host" (.publishAdvisor (.permit false "no") 1 (some "no")),
      .call (.add "patron" none)]

theorem contest_reachable : Reachable contest := (Reachable.offering _).after _

/-- What is going on while the patron's module goes. -/
def contestMoments : List Moment := Session.moments contest (.call (.unload "patron"))

open Environment in
/-- While the patron goes he is retired, and is not asked; nor is the one whose service is gone.
The loss comes off the bound, and the prize is that of the first who names one.  Behind the refusal
nobody is asked about the banner. -/
theorem advice_combined_contest :
    Reachable contest ∧ ∃ e, contest.Visits e ∧ e.Fits .killPoints ∧ e.Fits .bannerPermit ∧
      (∃ asked scorers total, e.Rewards ⟨40, 0⟩ asked scorers total) ∧
      (∃ asked permits, e.Judges asked permits) ∧
      (e.broker.advisors.listOf ⟨"kill-points"⟩).length = 6 ∧
      (e.award ⟨40, 0⟩).1 = .award ⟨mostPoints - 5, some 7⟩ ∧
      (e.award ⟨40, 0⟩).2.journal =
        e.journal ++ ["early", "late", "later"].map (.killAsked · ⟨40, 0⟩) ∧
      e.banner.1 = .flag (some false) ∧
      e.banner.2.journal = e.journal ++ ["yes", "no"].map .permitAsked := by
  let going := contestMoments.get ⟨1, by decide⟩
  have hgoing : contest.Visits going.env := Or.inr ⟨_, going, List.get_mem _ _, rfl⟩
  obtain ⟨hkill, hbanner, -⟩ := contest_reachable.advice_combined hgoing
  have hscorers : going.env.Fits .killPoints := by
    unfold Fits
    decide
  have hpermits : going.env.Fits .bannerPermit := by
    unfold Fits
    decide
  refine ⟨contest_reachable, going.env, hgoing, hscorers, hpermits, (hkill _).1 hscorers,
    hbanner hpermits, ?_⟩
  exact ⟨rfl, rfl, rfl, rfl, rfl⟩

/-- A scorer, and something else that somebody has published among the scorers. -/
def rigged : Rack :=
  Session.after (.offering [])
    [.act "host" (.publishAdvisor (.scorer (.fixed ⟨5, none⟩ "fair")) 0 (some "fair")),
      .act "host" (.publishAdvisor (.value ⟨"kill-points"⟩ false 0) 1 (some "odd"))]

open Environment in
/-- The scorer is there, visible and alive; but because of the other one nobody is asked. -/
theorem rigged_unrewarded :
    Reachable rigged ∧ rigged.Visits rigged.env ∧
      ((rigged.env.consulted .killPoints).map (·.contract)).head? = some .killPoints ∧
      (rigged.env.award ⟨30, 0⟩).1 = .failed (.registry (.shapeMismatch ⟨"kill-points"⟩)) ∧
      ¬ ∃ asked scorers total, rigged.env.Rewards ⟨30, 0⟩ asked scorers total := by
  have hfailed : (rigged.env.award ⟨30, 0⟩).1 =
      .failed (.registry (.shapeMismatch ⟨"kill-points"⟩)) := rfl
  refine ⟨(Reachable.offering _).after _, Or.inl rfl, rfl, hfailed, ?_⟩
  rintro ⟨asked, scorers, total, hrewards⟩
  have hreply := hrewards.reply
  rw [hfailed] at hreply
  simp at hreply

end Backplane
