import Backplane.Lifecycle.Rack
import Backplane.Proofs.Lifecycle.Registrations
/-!
# `Backplane.Proofs.Lifecycle.Course`: what happens in the course of a lifecycle operation

An operation of the lifecycle runs hooks, opens dossiers, and removes the registrations of some
instances.  Whatever else happens meanwhile, the environment stays sound, what became of
registrations is only added to, and nothing is removed from the registries but on somebody's demand
or with one of those instances.

Operations are those of the `ModuleLoader`, an instance is that of a `ModuleRecord`.
-/
namespace Backplane

namespace Scene.Sound

variable {s : Scene} {gone : List Ticket} {ds : List Dossier}

/-- The same records in the dossiers of the same instances. -/
theorem refile (hs : s.Sound gone) (hm : ds.map (·.member) = s.dossiers.map (·.member))
    (hf : ∀ n t, FiledIn ds n t ↔ FiledIn s.dossiers n t)
    (ht : ∀ d' ∈ ds, ∃ d ∈ s.dossiers, d.Trims d') : Sound gone { s with dossiers := ds } where
  balanced := ⟨hs.balanced.exact, hs.balanced.keys, hs.balanced.homes⟩
  chronicled :=
    { hs.chronicled with
      members := hm ▸ hs.chronicled.members
      numbered := forall_member_congr (q := (· < s.nextMember)) hm hs.chronicled.numbered
      opened := fun n t ht => hm ▸ hs.chronicled.opened n t ht
      filed := fun n t ht hp => (hf n t).mpr (hs.chronicled.filed n t ht hp)
      source := fun n t ht => hs.chronicled.source n t ((hf n t).mp ht) }
  tended := hs.tended.less (.refl _) ht

/-- One number more has been given to an instance. -/
theorem renumber (hs : s.Sound gone) : Sound gone { s with nextMember := s.nextMember + 1 } where
  balanced :=
    ⟨hs.balanced.exact, hs.balanced.keys,
      fun x hx n hn => Nat.lt_succ_of_lt (hs.balanced.homes x hx n hn)⟩
  chronicled :=
    { hs.chronicled with numbered := fun d hd => Nat.lt_succ_of_lt (hs.chronicled.numbered d hd) }
  tended := hs.tended.thin (.refl _)

/-- A new instance has an empty dossier. -/
theorem opened (hs : s.Sound gone) {d : Dossier} (hd : d.records = [])
    (hnew : d.member ∉ s.dossiers.map (·.member))
    (hlt : d.member < s.nextMember) : Sound gone { s with dossiers := s.dossiers ++ [d] } where
  balanced := ⟨hs.balanced.exact, hs.balanced.keys, hs.balanced.homes⟩
  chronicled :=
    { hs.chronicled with
      members := by
        rw [List.map_append, List.map_singleton]
        refine List.nodup_append.mpr ⟨hs.chronicled.members, List.nodup_singleton _, ?_⟩
        intro x hx y hy
        rw [List.mem_singleton.mp hy]
        exact fun heq => hnew (heq ▸ hx)
      numbered := fun x hx => by
        rcases List.mem_append.mp hx with hx | hx
        · exact hs.chronicled.numbered x hx
        · exact List.mem_singleton.mp hx ▸ hlt
      opened := fun n t ht => by
        rw [List.map_append]
        exact List.mem_append_left _ (hs.chronicled.opened n t ht)
      filed := fun n t ht hp => by
        obtain ⟨x, hx, hrest⟩ := hs.chronicled.filed n t ht hp
        exact ⟨x, List.mem_append_left _ hx, hrest⟩
      source := fun n t ht => by
        obtain ⟨x, hx, hxn, hxt⟩ := ht
        rcases List.mem_append.mp hx with hx | hx
        · exact hs.chronicled.source n t ⟨x, hx, hxn, hxt⟩
        · rw [List.mem_singleton.mp hx] at hxt
          simp [Dossier.tickets, hd] at hxt }
  tended :=
    { hs.tended with
      kept := fun x hx => by
        rcases List.mem_append.mp hx with hx | hx
        · exact hs.tended.kept x hx
        · rw [List.mem_singleton.mp hx]
          exact ⟨by simp [hd], fun _ => false, by simp [Dossier.tickets, hd]⟩ }

end Scene.Sound

/-- What an environment has become in the course of an operation that removes the registrations of
instances in `p` only. -/
structure Course (p : Nat → Prop) (gone : List Ticket) (e₀ e : Environment) : Prop where
  sound : e.Sound gone
  claims : e.claims = e₀.claims
  later : e₀.nextMember ≤ e.nextMember
  history : ∃ news, e.history = e₀.history ++ news ∧
    ∀ t, .removed t ∈ news → ∃ n, p n ∧ .published (some n) t ∈ e.history

namespace Course

variable {p : Nat → Prop} {gone : List Ticket} {e₀ e e' : Environment} {n : Nat} {t : Ticket}
  {home : SlotHome}

theorem refl (hs : e.Sound gone) : Course p gone e e :=
  ⟨hs, rfl, Nat.le_refl _, [], by simp, by simp⟩

theorem history_subset (hc : Course p gone e₀ e) : e₀.history ⊆ e.history := by
  obtain ⟨news, hnews, -⟩ := hc.history
  rw [hnews]
  exact List.subset_append_left _ _

theorem trans (hc : Course p gone e₀ e) (hc' : Course p gone e e') : Course p gone e₀ e' := by
  obtain ⟨news, hnews, hn⟩ := hc.history
  obtain ⟨more, hmore, hm⟩ := hc'.history
  refine ⟨hc'.sound, hc'.claims.trans hc.claims, Nat.le_trans hc.later hc'.later, news ++ more, ?_,
    fun t ht => ?_⟩
  · rw [hmore, hnews, List.append_assoc]
  · rcases List.mem_append.mp ht with ht | ht
    · obtain ⟨n, hpn, hpub⟩ := hn t ht
      exact ⟨n, hpn, hc'.history_subset hpub⟩
    · exact hm t ht

/-- What happens next adds to what has happened. -/
theorem extend (hc : Course p gone e₀ e) (hs : e'.Sound gone) (hclaims : e'.claims = e.claims)
    (hlater : e.nextMember ≤ e'.nextMember) {more : List Episode}
    (hmore : e'.history = e.history ++ more)
    (hremoved : ∀ t, .removed t ∈ more → ∃ n, p n ∧ .published (some n) t ∈ e.history) :
    Course p gone e₀ e' := by
  refine hc.trans ⟨hs, hclaims, hlater, more, hmore, fun t ht => ?_⟩
  obtain ⟨n, hpn, hpub⟩ := hremoved t ht
  exact ⟨n, hpn, hmore ▸ List.mem_append_left _ hpub⟩

/-- Nothing happens where the scene stays the same. -/
theorem same (hc : Course p gone e₀ e) (h : e'.scene [] = e.scene []) : Course p gone e₀ e' := by
  have hhist : e'.history = e.history ++ [] :=
    (congrArg Scene.history h).trans (List.append_nil _).symm
  exact hc.extend (hc.sound.same h) (congrArg Scene.claims h)
    (Nat.le_of_eq (congrArg Scene.nextMember h).symm)
    hhist (by simp)

theorem moves (hc : Course p gone e₀ e) (hm : Moves home (e.scene []) (e'.scene []))
    (hhome : ∀ n, home = .member n → n < e.nextMember) : Course p gone e₀ e' := by
  obtain ⟨hs, hl⟩ := hc.sound.moves hm hhome
  obtain ⟨news, hnews, hn⟩ := hl.history
  exact hc.extend hs hl.claims (Nat.le_of_eq hl.nextMember.symm) hnews fun t ht => absurd ht (hn t)

/-- Removing the registrations of an instance. -/
theorem clear (hc : Course p gone e₀ e) (hn : p n)
    (h : e'.scene [] = (e.scene []).cleared n (e.ticketsOf n)) :
    Course p gone e₀ e' := by
  have hs : e'.Sound gone := by
    rw [Environment.Sound, h]
    exact Scene.Sound.cleared hc.sound fun t => hc.sound.mem_ticketsOf
  refine hc.extend hs (congrArg Scene.claims h) (Nat.le_of_eq (congrArg Scene.nextMember h).symm)
    (congrArg Scene.history h) fun t ht => ?_
  have hmem : t ∈ e.ticketsOf n := by simpa using ht
  exact ⟨n, hn, hc.sound.chronicled.source n t (hc.sound.mem_ticketsOf.mp hmem)⟩

/-- What is gone stays gone. -/
theorem absent (hc : Course p gone e₀ e) {gone₀ : List Ticket} (hs : e₀.Sound gone₀)
    {d : Option Nat} (hpub : .published d t ∈ e₀.history) (ht : e₀.broker.usage? t = none) :
    e.broker.usage? t = none := by
  have hended : ¬ (.withdrawn t ∉ e₀.history ∧ .removed t ∉ e₀.history) := by
    intro hnot
    have hsome := (hs.chronicled.present t).mpr ⟨⟨d, hpub⟩, hnot⟩
    simp [Environment.scene, ht] at hsome
  rw [← Option.not_isSome_iff_eq_none]
  intro hsome
  obtain ⟨-, hw, hr⟩ := (hc.sound.chronicled.present t).mp hsome
  exact hended ⟨fun h => hw (hc.history_subset h), fun h => hr (hc.history_subset h)⟩

/-- Whatever was there before and has not been withdrawn is there still, unless it was registered by
one of those instances. -/
theorem usage?_isSome (hc : Course p gone e₀ e) {gone₀ : List Ticket} (hs : e₀.Sound gone₀)
    (hp : ∀ n, p n → e₀.nextMember ≤ n) (ht : (e₀.broker.usage? t).isSome)
    (hw : .withdrawn t ∉ e.history) :
    (e.broker.usage? t).isSome := by
  obtain ⟨⟨d, hd⟩, -, hrem⟩ := (hs.chronicled.present t).mp ht
  refine (hc.sound.chronicled.present t).mpr ⟨⟨d, hc.history_subset hd⟩, hw, fun hr => ?_⟩
  obtain ⟨news, hnews, hn⟩ := hc.history
  have hr' : .removed t ∈ e₀.history ++ news := hnews ▸ hr
  rcases List.mem_append.mp hr' with hr' | hr'
  · exact hrem hr'
  · obtain ⟨n, hpn, hpub⟩ := hn t hr'
    -- it was published once only, so through one of those instances, which are all new
    have hdn : d = some n := hc.sound.chronicled.once d (some n) t (hc.history_subset hd) hpub
    subst hdn
    obtain ⟨x, hx, hxn⟩ := List.mem_map.mp (hs.chronicled.opened n t hd)
    have hlt := hs.chronicled.numbered x hx
    have hle := hp n hpn
    exact absurd (hxn ▸ hlt) (Nat.not_lt.mpr hle)

theorem mono {q : Nat → Prop} (hc : Course p gone e₀ e) (hpq : ∀ n, p n → q n) :
    Course q gone e₀ e := by
  obtain ⟨news, hnews, hn⟩ := hc.history
  refine ⟨hc.sound, hc.claims, hc.later, news, hnews, fun t ht => ?_⟩
  obtain ⟨n, hpn, hpub⟩ := hn t ht
  exact ⟨n, hpq n hpn, hpub⟩

end Course

/-- A course in which nothing is removed with its instance, and nothing taken away from a user. -/
structure Calm (gone : List Ticket) (e e' : Environment) : Prop where
  course : Course (fun _ => False) gone e e'
  departures : ∀ t, t ∈ e'.broker.departures ↔ t ∈ e.broker.departures

namespace Calm

variable {gone : List Ticket} {e e' e'' : Environment} {home : SlotHome}

theorem refl (hs : e.Sound gone) : Calm gone e e := ⟨.refl hs, fun _ => .rfl⟩

theorem trans (h : Calm gone e e') (h' : Calm gone e' e'') : Calm gone e e'' :=
  ⟨h.course.trans h'.course, fun t => (h'.departures t).trans (h.departures t)⟩

theorem same (h : Calm gone e e') (heq : e''.scene [] = e'.scene []) : Calm gone e e'' where
  course := h.course.same heq
  departures := fun t => by
    rw [show e''.broker = e'.broker from congrArg Scene.broker heq]
    exact h.departures t

/-- Whatever somebody does is calm. -/
theorem moves (hs : e.Sound gone) (hm : Moves home (e.scene []) (e'.scene []))
    (hhome : ∀ n, home = .member n → n < e.nextMember) : Calm gone e e' :=
  ⟨(Course.refl hs).moves hm hhome, (hs.moves hm hhome).2.departures⟩

end Calm

end Backplane
