import Backplane.Lifecycle.Registrations
import Backplane.Proofs.Environment.Sound
import Backplane.Proofs.Registry.Retirement
/-!
# `Backplane.Proofs.Lifecycle.Registrations`: a module's registrations taken together

Retiring them all either succeeds, and hides them, or changes nothing.  Removing them all takes out
what the dossier has, and of those tickets the ones that are in use depart.

These are `retire_registrations` and `remove_registrations` of a `ModuleContext`.
-/
namespace Backplane

/-- A sound environment, with nothing in hand. -/
abbrev Environment.Sound (gone : List Ticket) (env : Environment) : Prop :=
  (env.scene []).Sound gone

namespace Environment

variable {env env' : Environment} {gone : List Ticket} {n : Nat} {t : Ticket} {hand : List Hold}
  {who : Actor} {module : String} {ts done : List Ticket}

theorem Sound.wellFormed (hs : env.Sound gone) : env.broker.WellFormed :=
  hs.balanced.exact.wellFormed

theorem Sound.same (hs : env.Sound gone) (h : env'.scene [] = env.scene []) : env'.Sound gone := by
  rw [Environment.Sound, h]
  exact hs

theorem Sound.moves {home : SlotHome} (hs : env.Sound gone)
    (hm : Moves home (env.scene []) (env'.scene []))
    (hhome : ∀ n, home = .member n → n < env.nextMember) :
    env'.Sound gone ∧ Scene.Leads home (env.scene []) (env'.scene []) :=
  Scene.Sound.moves hs hm hhome

theorem dossier?_of_mem {d : Dossier} (hnd : (env.dossiers.map (·.member)).Nodup)
    (hd : d ∈ env.dossiers) : env.dossier? d.member = some d := by
  cases hfound : env.dossier? d.member with
  | none => exact absurd (List.mem_map_of_mem hd) (notMem_of_dossier? hfound)
  | some d' =>
      obtain ⟨hmem, hdn⟩ := mem_of_dossier? hfound
      rw [List.inj_on_of_nodup_map hnd hmem hd hdn]

/-- The tickets of an instance are those filed in its dossier. -/
theorem mem_ticketsOf (hnd : (env.dossiers.map (·.member)).Nodup) :
    t ∈ env.ticketsOf n ↔ FiledIn env.dossiers n t := by
  rw [ticketsOf]
  constructor
  · intro ht
    cases hd : env.dossier? n with
    | none => simp [hd] at ht
    | some d =>
        obtain ⟨hmem, hdn⟩ := mem_of_dossier? hd
        exact ⟨d, hmem, hdn, by simpa [hd, Dossier.tickets] using ht⟩
  · rintro ⟨d, hmem, rfl, ht⟩
    rw [dossier?_of_mem hnd hmem]
    exact ht

theorem Sound.mem_ticketsOf (hs : env.Sound gone) :
    t ∈ env.ticketsOf n ↔ FiledIn env.dossiers n t :=
  Environment.mem_ticketsOf hs.chronicled.members

/-- What an instance has on record stands in the order in which it was published. -/
theorem Sound.ticketsOf_eq (hs : env.Sound gone) :
    env.ticketsOf n = (publishedBy n env.history).filter (· ∈ env.ticketsOf n) := by
  have hordered : ∃ keep : Ticket → Bool,
      env.ticketsOf n = (publishedBy n env.history).filter keep := by
    rw [ticketsOf]
    cases hd : env.dossier? n with
    | none => exact ⟨fun _ => false, by simp⟩
    | some d =>
        obtain ⟨hmem, rfl⟩ := mem_of_dossier? hd
        exact (hs.tended.kept d hmem).ordered
  obtain ⟨keep, hkeep⟩ := hordered
  refine hkeep.trans (List.filter_congr fun t ht => ?_)
  have hiff : t ∈ env.ticketsOf n ↔ keep t = true := by
    rw [hkeep, List.mem_filter]
    exact and_iff_right ht
  rw [decide_eq_decide.mpr hiff, Bool.decide_coe]

/-! ## Removing -/

theorem forceRemove_scene :
    (forceRemove module env t).scene hand =
    { env.scene hand with broker := (env.broker.forceRemove t).2 } := by
  unfold forceRemove
  simp only
  split <;> rfl

theorem removeTicket_scene :
    (removeTicket module env t).scene hand =
    { env.scene hand with broker := (env.broker.forceRemove t).2 } := by
  unfold removeTicket withdrawTicket
  cases hw : env.broker.withdraw t with
  | error e => exact forceRemove_scene
  | ok b =>
      obtain rfl := Broker.forceRemove_of_withdraw hw
      rfl

theorem foldl_scene {f : Environment → Ticket → Environment}
    (hf : ∀ e t, (f e t).scene hand = { e.scene hand with broker := (e.broker.forceRemove t).2 }) :
    (ts.foldl f env).scene hand = { env.scene hand with broker := env.broker.removeAll ts } := by
  induction ts generalizing env with
  | nil => rfl
  | cons t ts ih =>
      have hbroker : (f env t).broker = (env.broker.forceRemove t).2 :=
        congrArg Scene.broker (hf env t)
      rw [List.foldl_cons, ih, hf, hbroker]
      rfl

end Environment

/-- The scene after all registrations of an instance have been removed. -/
def Scene.cleared (s : Scene) (n : Nat) (ts : List Ticket) : Scene :=
  { s with
    broker := s.broker.removeAll ts.reverse
    dossiers := changeIn s.dossiers n fun d => { d with records := [] }
    history := s.history ++ ts.map .removed }

theorem Scene.Sound.cleared {s : Scene} {gone ts : List Ticket} {n : Nat} (hs : s.Sound gone)
    (hts : ∀ t, t ∈ ts ↔ FiledIn s.dossiers n t) : (s.cleared n ts).Sound gone := by
  have hr : s.broker.Removes _ (s.broker.removeAll ts.reverse) :=
    hs.balanced.exact.wellFormed.removeAll
  refine ⟨hs.balanced.withBroker (hs.balanced.exact.removes hr), ?_,
    hs.tended.trim (.removeAll hs.balanced.exact.wellFormed) (Dossier.Trims.changeIn fun _ => .clear) (by simp)⟩
  refine hs.chronicled.removes hr (map_member_changeIn fun _ => rfl) (by simp) (by simp) ?_ ?_ ?_
  · exact fun t ht => ⟨_, hs.chronicled.source n t ((hts t).mp (List.mem_reverse.mp ht))⟩
  · exact fun m t hf => (filedIn_clear.mp hf).1
  · intro m t hf ht
    refine filedIn_clear.mpr ⟨hf, fun hmn => ht ?_⟩
    exact List.mem_reverse.mpr ((hts t).mpr (hmn ▸ hf))

/-- A chronicle goes on when registrations are hidden. -/
theorem Scene.Chronicled.hide {s : Scene} {gone ts : List Ticket} {b : Broker}
    (hs : s.Chronicled gone)
    (hh : s.broker.Hides ts b) (hdone : ∀ t ∈ ts, ∀ u, b.usage? t = some u → u.retired = true)
    (hknown : ∀ t ∈ ts, ∃ d, .published d t ∈ s.history) :
    Scene.Chronicled (gone ++ ts) { s with broker := b } where
  toFiling := { hs.toFiling with filed := fun n t ht hp => hs.filed n t ht (hh.isSome_usage? ▸ hp) }
  issued := fun d t ht => hh.due ▸ hs.issued d t ht
  once := hs.once
  ended := hs.ended
  present := fun t => by rw [hh.isSome_usage?, hs.present t]
  hidden := fun t x hx => by
    obtain ⟨u, hu, rfl⟩ := Option.map_eq_some_iff.mp hx
    rw [List.mem_append]
    constructor
    · intro hr
      rcases hh.usage? t with ⟨hsame, -⟩ | ⟨ht, -⟩
      · have hold : s.broker.hidden? t = some u.retired := by
          rw [Broker.hidden?, ← hsame, hu, Option.map_some]
        exact Or.inl ((hs.hidden t _ hold).mp hr)
      · exact Or.inr ht
    · rintro (ht | ht)
      · rcases hh.usage? t with ⟨hsame, -⟩ | ⟨-, v, -, -, hv⟩
        · have hold : s.broker.hidden? t = some u.retired := by
            rw [Broker.hidden?, ← hsame, hu, Option.map_some]
          exact (hs.hidden t _ hold).mpr ht
        · rw [Option.some.inj (hu.symm.trans hv)]
          rfl
      · exact hdone t ht u hu
  known := fun t ht => by
    rcases List.mem_append.mp ht with ht | ht
    · exact hs.known t ht
    · exact hknown t ht

namespace Environment

variable {env env' : Environment} {gone : List Ticket} {n : Nat} {t : Ticket} {hand : List Hold}
  {who : Actor} {module : String} {ts done : List Ticket}

theorem removeRegistrations_scene :
    (env.removeRegistrations who).scene hand
      = (env.scene hand).cleared who.member (env.ticketsOf who.member) :=
  foldl_scene fun _ _ => removeTicket_scene

theorem forceRemoveRegistrations_scene :
    (env.forceRemoveRegistrations who).scene hand
      = (env.scene hand).cleared who.member (env.ticketsOf who.member) :=
  foldl_scene fun _ _ => forceRemove_scene

/-! ## Retiring -/

/-- The report on a ticket that names nothing any more. -/
def missing (env : Environment) (module : String) (t : Ticket) : Environment :=
  env.report .warn .context
    ("Module " ++ module ++ ": " ++ (RegistryError.unknownTicket t.capability).message)

theorem retireAll_cons (hb : env.broker.WellFormed) :
    retireAll module done (t :: ts) env = match env.broker.usage? t with
      | none => retireAll module (done ++ [t]) ts (env.missing module t)
      | some u =>
        if u.outstanding = 0 then
          retireAll module (done ++ [t]) ts
            { env with broker := env.broker.revise (Broker.only [t] Usage.hide) }
        else (some (t.capability, u.outstanding), env.restoreAll done) := by
  rw [retireAll, hb.retire_eq]
  cases env.broker.usage? t with
  | none => rfl
  | some u =>
      by_cases ho : u.outstanding = 0
      · simp only [ho, if_true]
      · simp only [ho, if_false]

theorem retire_ok_of_idle {u : Usage} (hb : env.broker.WellFormed)
    (hu : env.broker.usage? t = some u) (ho : u.outstanding = 0) :
    env.broker.retire t = .ok (env.broker.revise (Broker.only [t] Usage.hide)) := by
  rw [hb.retire_eq, hu]
  simp only [ho, if_true]

/-- If one registration is in use, those retired before it are restored. -/
theorem retireAll_some {b₀ : Broker} {x : Capability × Nat} {past : List Ticket}
    (hb : b₀.WellFormed) (hopen : b₀.Open) (hh : b₀.Hides (done ++ past) env.broker)
    (h : (retireAll module done ts env).1 = some x) :
    ∃ b log, b₀.Hides past b ∧
      (retireAll module done ts env).2 = { env with broker := b, log := env.log ++ log } := by
  -- the broker from before stays fixed: it is compared with what each retirement makes of it
  induction ts generalizing done env with
  | nil => simp [retireAll] at h
  | cons t ts ih =>
      have hwf := hh.wellFormed hb
      have hmono : t :: (done ++ past) ⊆ (done ++ [t]) ++ past := by
        intro y hy
        simpa [or_assoc, or_left_comm] using hy
      rw [retireAll_cons hwf] at h ⊢
      cases hu : env.broker.usage? t with
      | none =>
          simp only [hu] at h ⊢
          have hh' : b₀.Hides ((done ++ [t]) ++ past) (env.missing module t).broker :=
            hh.mono (List.subset_of_cons_subset hmono)
          obtain ⟨b, log, hpast, heq⟩ := ih hh' h
          exact ⟨b, _, hpast, by rw [heq, missing, report, List.append_assoc]⟩
      | some u =>
          by_cases ho : u.outstanding = 0
          · simp only [hu, ho, if_true] at h ⊢
            have hh' := (hh.retire hb (retire_ok_of_idle hwf hu ho)).mono hmono
            exact ih hh' h
          · simp only [ho, if_false]
            exact ⟨_, [], hh.restore_foldl hb hopen, by simp [restoreAll]⟩

/-- If all can be retired, they are hidden then, as far as they are present. -/
theorem retireAll_none {b₀ : Broker} (hb : b₀.WellFormed) (hh : b₀.Hides done env.broker)
    (hd : ∀ t ∈ done, ∀ u, env.broker.usage? t = some u → u.retired = true)
    (h : (retireAll module done ts env).1 = none) :
    ∃ b log, b₀.Hides (done ++ ts) b ∧
    (∀ t ∈ done ++ ts, ∀ u, b.usage? t = some u → u.retired = true) ∧
      (∀ out, env.broker.Exact out → b.Exact out) ∧
      (retireAll module done ts env).2 = { env with broker := b, log := env.log ++ log } := by
  induction ts generalizing done env with
  | nil =>
      exact ⟨env.broker, [], by simpa using hh, by simpa using hd,
        fun _ hx => hx, by simp [retireAll]⟩
  | cons t ts ih =>
      have hwf := hh.wellFormed hb
      have hmono : t :: done ⊆ done ++ [t] := by
        intro y hy
        simpa [or_comm] using hy
      rw [List.append_cons]
      rw [retireAll_cons hwf] at h ⊢
      cases hu : env.broker.usage? t with
      | none =>
          simp only [hu] at h ⊢
          have hh' : b₀.Hides (done ++ [t]) (env.missing module t).broker :=
            hh.mono (List.subset_of_cons_subset hmono)
          have hd' : ∀ x ∈ done ++ [t], ∀ v, (env.missing module t).broker.usage? x = some v →
              v.retired = true := by
            intro x hx v hv
            change env.broker.usage? x = some v at hv
            rcases List.mem_append.mp hx with hx | hx
            · exact hd x hx v hv
            · rw [List.mem_singleton.mp hx, hu] at hv
              simp at hv
          obtain ⟨b, log, hall, hdone, hx, heq⟩ := ih hh' hd' h
          exact ⟨b, _, hall, hdone, hx, by rw [heq, missing, report, List.append_assoc]⟩
      | some u =>
          by_cases ho : u.outstanding = 0
          · simp only [hu, ho, if_true] at h ⊢
            have hr := retire_ok_of_idle hwf hu ho
            have hd' : ∀ x ∈ done ++ [t], ∀ v,
                (env.broker.revise (Broker.only [t] Usage.hide)).usage? x = some v →
                v.retired = true := by
              intro x hx v hv
              by_cases hxt : x = t
              · rw [hxt, Broker.usage?_revise, hu] at hv
                simp only [Broker.only, List.mem_singleton, if_true, Option.map_some,
                  Option.some.injEq] at hv
                rw [← hv]
                rfl
              · rw [(Broker.revise_only_of_ne hxt).1] at hv
                exact hd x (by simpa [hxt] using hx) v hv
            obtain ⟨b, log, hall, hdone, hx, heq⟩ := ih ((hh.retire hb hr).mono hmono) hd' h
            exact ⟨b, log, hall, hdone, fun out hout => hx out (hout.retire hr), heq⟩
          · simp [hu, ho] at h

theorem Sound.isOpen (hs : env.Sound []) : env.broker.Open := by
  intro t u hu
  have hh : env.broker.hidden? t = some u.retired := by rw [Broker.hidden?, hu, Option.map_some]
  simpa using hs.chronicled.hidden t u.retired hh

/-- A refusal to retire changes nothing. -/
theorem retireRegistrations_some {x : Capability × Nat} (hs : env.Sound [])
    (h : (env.retireRegistrations who).1 = some x) :
    ∃ log, (env.retireRegistrations who).2 = { env with log := env.log ++ log } := by
  have hnone : env.broker.Hides ([] ++ []) env.broker := .refl _
  obtain ⟨b, log, hb, heq⟩ := retireAll_some hs.wellFormed hs.isOpen hnone h
  exact ⟨log, by rw [retireRegistrations, heq, hb.eq hs.wellFormed]⟩

/-- Retiring an instance's registrations hides them, and nothing else. -/
theorem Sound.retire (hs : env.Sound gone) (h : (env.retireRegistrations who).1 = none) :
    (env.retireRegistrations who).2.Sound (gone ++ env.ticketsOf who.member) ∧
      ∃ b log, env.broker.Hides (env.ticketsOf who.member) b ∧
        (env.retireRegistrations who).2 = { env with broker := b, log := env.log ++ log } := by
  obtain ⟨b, log, hh, hdone, hx, heq⟩ := retireAll_none hs.wellFormed (.refl _) (by simp) h
  have hknown : ∀ t ∈ env.ticketsOf who.member, ∃ d, .published d t ∈ env.history :=
    fun t ht => ⟨_, hs.chronicled.source _ t (hs.mem_ticketsOf.mp ht)⟩
  have hc := hs.chronicled.hide (b := b) hh hdone hknown
  refine ⟨?_, b, log, hh, heq⟩
  rw [retireRegistrations, heq]
  exact ⟨hs.balanced.withBroker (hx _ hs.balanced.exact), hc, hs.tended.thin hh.thins⟩

end Environment

end Backplane
