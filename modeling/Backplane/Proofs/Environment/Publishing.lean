import Backplane.Proofs.Environment.Dossiers
import Backplane.Proofs.Registry.Guests
/-!
# `Backplane.Proofs.Environment.Publishing`: hooks that only publish

A hook that asks for one registration after another, and for nothing else, comes to its end if the
capabilities of the exclusive ones are free and are asked for once.  What has come of it then is in
its own dossier and at the end of the list of services; the rest of the environment is what it was,
but for the registrations themselves.

The dossier is the `ModuleContext` that the hook `load` of a `Module` is given.
-/
namespace Backplane

/-- A registration that a hook asks for, and the name under which its ticket is kept. -/
inductive Publication
  | exclusive (service : Service) (ticket : Option String)
  | advisory (service : Service) (priority : Int) (ticket : Option String)

namespace Publication

def action : Publication → Action
  | exclusive s ticket => .publishInterface s ticket
  | advisory s priority ticket => .publishAdvisor s priority ticket

def capability : Publication → Capability
  | exclusive s _ => s.contract.capability
  | advisory s _ _ => s.contract.capability

def isExclusive : Publication → Bool
  | exclusive _ _ => true
  | advisory _ _ _ => false

end Publication

/-- Whether a hook, as long as what it asks for is published, asks for some registrations, one after
another, and then ends well.  It may note in the journal what it has done. -/
inductive Behaviour.Publishes : List Publication → Behaviour → Prop
  | finish : Publishes [] (.finish .ok)
  | mention {ps : List Publication} {a : Action} {reply : Reply} {next : Behaviour}
      (h : Publishes ps next) : Publishes ps (.mention a reply next)
  | perform {p : Publication} {ps : List Publication} {next : Reply → Behaviour}
      (h : Publishes ps (next (.published p.capability))) :
      Publishes (p :: ps) (.perform p.action next)

/-- The capabilities of the exclusive ones among some registrations. -/
def exclusives (ps : List Publication) : List Capability :=
  (ps.filter Publication.isExclusive).map Publication.capability

/-- Whether a broker has room for some registrations: the capabilities of the exclusive ones are
free and distinct. -/
structure Broker.Admits (b : Broker) (ps : List Publication) : Prop where
  free : ∀ c ∈ exclusives ps, b.interfaces.contains c = false
  distinct : (exclusives ps).Nodup

theorem Interfaces.register_of_free {r : Interfaces} {k : Contract} (owner : String) (s : ServiceId)
    (h : r.contains k.capability = false) : ∃ n r', r.register k owner s = .ok (n, r') := by
  have hnone : r.find? k.capability = none := by simpa [contains] using h
  rw [register, hnone]
  exact ⟨_, _, rfl⟩

namespace Broker

variable {b b' : Broker} {t : Ticket} {p : Publication} {ps : List Publication}

theorem Publishes.contains (h : b.Publishes t b') (c : Capability) :
    b'.interfaces.contains c = (b.interfaces.contains c || t.isExclusive && t.capability = c) := by
  cases h with
  | @interface k owner s n i hr =>
      obtain ⟨-, rfl⟩ := Interfaces.register_ok hr
      simp only [Interfaces.contains, Interfaces.find?, List.find?_append, Option.isSome_or]
      congr 1
      by_cases hc : k.capability = c <;> simp [Ticket.isExclusive, Ticket.capability, hc]
  | advisor k owner priority s => simp [Ticket.isExclusive]

namespace Admits

theorem nil : b.Admits [] := ⟨by simp [exclusives], .nil⟩

theorem head (h : b.Admits (p :: ps)) (hp : p.isExclusive = true) :
    b.interfaces.contains p.capability = false :=
  h.free _ (by simp [exclusives, hp])

/-- When one of them has been published there is still room for the others. -/
theorem tail (h : b.Admits (p :: ps)) (hp : b.Publishes t b')
    (hx : t.isExclusive = p.isExclusive) (hc : t.capability = p.capability) : b'.Admits ps := by
  obtain ⟨hfree, hdistinct⟩ := h
  cases hexclusive : p.isExclusive with
  | false =>
      have hsame : exclusives (p :: ps) = exclusives ps := by simp [exclusives, hexclusive]
      rw [hsame] at hfree hdistinct
      refine ⟨fun c hcin => ?_, hdistinct⟩
      rw [hp.contains, hx, hexclusive, hfree c hcin]
      rfl
  | true =>
      have hcons : exclusives (p :: ps) = p.capability :: exclusives ps := by
        simp [exclusives, hexclusive]
      rw [hcons] at hfree hdistinct
      obtain ⟨hnot, hdistinct⟩ := List.nodup_cons.mp hdistinct
      refine ⟨fun c hcin => ?_, hdistinct⟩
      have hne : t.capability ≠ c := fun heq => hnot (hc ▸ heq ▸ hcin)
      rw [hp.contains, hfree c (List.mem_cons_of_mem _ hcin)]
      simp [hne]

end Admits

end Broker

namespace Environment

section Steps

variable {e : Environment}

theorem broker_retain {party : Party} {x : ServiceId} {name : Option String} {origin : Origin}
    {text : String} : ((e.announce party origin text).retain party name t x).broker = e.broker := by
  have hannounce : (e.announce party origin text).broker = e.broker := by
    rw [announce]
    split <;> rfl
  rw [← hannounce, retain, keep]
  cases party.dossier? <;> cases name <;> rfl

theorem publishInterface_ok {party : Party} {s : Service} {name : Option String} {n : Nat}
    {i : Interfaces}
    (hr : e.broker.interfaces.register s.contract (e.ownerName party) e.services.length = .ok (n, i)) :
    e.publishInterface party s name = (.published s.contract.capability,
      (announce { e.addService s with broker := { e.broker with interfaces := i } } party .interfaces
        ("Module " ++ e.ownerName party ++ " registered interface " ++ s.contract.capability.name)).retain
          party name (.interface s.contract.capability n) e.services.length) := by
  rw [publishInterface, hr]

end Steps

/-- What an environment has become since it was given one more instance, if the instance has been
given a dossier, some tickets are filed in it, and nothing else has changed that others can see. -/
structure Lodges (e₀ : Environment) (ts : List Ticket) (e : Environment) : Prop where
  broker : e₀.broker.Houses ts e.broker
  dossiers : ∃ d : Dossier, d.member = e₀.nextMember ∧ d.tickets = ts ∧
    e.dossiers = e₀.dossiers ++ [d]
  fresh : e₀.nextMember ∉ e₀.dossiers.map (·.member)
  services : e₀.services <+: e.services
  kept : e.kept = e₀.kept
  hosted : e.hosted = e₀.hosted
  slots : e.slots = e₀.slots
  nextMember : e.nextMember = e₀.nextMember + 1

namespace Lodges

variable {e₀ e : Environment} {ts : List Ticket} {t : Ticket} {b : Broker} {ps : List Publication}

/-- Notes and reports have no part in it. -/
theorem noted (h : Lodges e₀ ts e) {turns : List Turn} {journal : List JournalEntry}
    {log : List LogEvent} : Lodges e₀ ts { e with turns, journal, log } :=
  { h with }

theorem withBroker (h : Lodges e₀ ts e) (hb : e₀.broker.Houses ts b) :
    Lodges e₀ ts { e with broker := b } :=
  { h with broker := hb }

theorem changeIn_dossiers {d : Dossier} {f : Dossier → Dossier} (h : Lodges e₀ ts e)
    (hd : d.member = e₀.nextMember) (heq : e.dossiers = e₀.dossiers ++ [d]) :
    changeIn e.dossiers e₀.nextMember f = e₀.dossiers ++ [f d] := by
  rw [heq, changeIn, List.map_append, ← changeIn, changeIn_of_notMem h.fresh, List.map_singleton,
    if_pos hd]

/-- What the instance publishes is filed. -/
theorem record {s : Service} {name : Option String} {origin : Origin} {text : String}
    (h : Lodges e₀ ts e) (hp : e.broker.Publishes t b) :
    Lodges e₀ (ts ++ [t])
      ((announce { e.addService s with broker := b } (.member e₀.nextMember) origin text).retain
        (.member e₀.nextMember) name t e.services.length) := by
  obtain ⟨d, hd, hts, heq⟩ := h.dossiers
  have hfiled := h.changeIn_dossiers (f := (·.append ⟨t, e.services.length⟩)) hd heq
  have hservices : e₀.services <+: e.services ++ [s] := h.services.trans (List.prefix_append _ _)
  unfold announce
  cases name <;> split
  all_goals exact ⟨h.broker.publish hp, ⟨d.append ⟨t, e.services.length⟩, hd,
    by rw [Dossier.tickets_append, hts], hfiled⟩, h.fresh, hservices, h.kept, h.hosted, h.slots,
    h.nextMember⟩

/-- It is published if there is room for it. -/
theorem perform {p : Publication} (h : Lodges e₀ ts e) (ha : e.broker.Admits (p :: ps)) :
    ∃ t e', e.perform (.member e₀.nextMember) p.action = (.published p.capability, e') ∧
      t.isExclusive = p.isExclusive ∧ Lodges e₀ (ts ++ [t]) e' ∧ e'.broker.Admits ps := by
  cases p with
  | exclusive s name =>
      obtain ⟨n, i, hr⟩ := Interfaces.register_of_free (e.ownerName (.member e₀.nextMember))
        e.services.length (ha.head rfl)
      have hp : e.broker.Publishes (.interface s.contract.capability n) _ := .interface hr
      refine ⟨_, _, publishInterface_ok hr, rfl, h.record hp, ?_⟩
      rw [broker_retain]
      exact ha.tail hp rfl rfl
  | advisory s priority name =>
      have hp : e.broker.Publishes _ _ := .advisor s.contract
        (e.ownerName (.member e₀.nextMember)) priority e.services.length
      refine ⟨_, _, rfl, rfl, h.record hp, ?_⟩
      rw [broker_retain]
      exact ha.tail hp rfl rfl

/-- A hook that only publishes comes to its end, and all that it has published is filed. -/
theorem run {who : Actor} (hook : Hook) {x : Behaviour} (hx : x.Publishes ps) (h : Lodges e₀ ts e)
    (ha : e.broker.Admits ps) (hwho : who.member = e₀.nextMember) :
    ∃ ts' e', Environment.run who hook x e = (.ok, e') ∧
      ts'.map Ticket.isExclusive = ps.map Publication.isExclusive ∧ Lodges e₀ (ts ++ ts') e' := by
  induction hx generalizing e ts with
  | finish => exact ⟨[], e, rfl, rfl, by rwa [List.append_nil]⟩
  | @mention ps a reply next hnext ih =>
      have hnoted : Lodges e₀ ts (e.note (.did who hook a reply)) := h.noted
      exact ih hnoted ha
  | @perform p ps next hnext ih =>
      obtain ⟨t, e₁, hperform, ht, hone, hrest⟩ := h.perform ha
      obtain ⟨ts', e', hrun, hts, hall⟩ := ih hone hrest
      refine ⟨t :: ts', e', ?_, by rw [List.map_cons, List.map_cons, ht, hts], ?_⟩
      · rw [Environment.run, hwho, hperform]
        exact hrun
      · rwa [List.append_assoc] at hall

end Lodges

end Environment

end Backplane
