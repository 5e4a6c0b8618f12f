import Backplane.Proofs.Environment.Dossiers
import Backplane.Proofs.Registry.Accounting
/-!
# `Backplane.Proofs.Environment.Sound`: what every move preserves

Three things hold of every scene.  It is balanced: the count of each registration is the number of
references in hand and in slots that cover it.  It is chronicled: what has become of registrations
says which are present, and which dossier a present one is filed in.  And it is tended: dossiers
keep what is present of what they have on record.  Each move preserves all three, so every hook
does.

Counts are those of `RefCount`, dossiers are `ModuleContext`s.
-/
namespace Backplane

namespace Scene

variable {s s' : Scene} {home : SlotHome} {gone : List Ticket} {t : Ticket} {b : Broker}

/-! ## Balance -/

/-- Counts agree with the references in hand and in slots, and slots belong to somebody. -/
structure Balanced (s : Scene) : Prop where
  exact : s.broker.Exact (s.hand ++ s.slots.map (·.2))
  keys : (s.slots.map (·.1)).Nodup
  homes : ∀ x ∈ s.slots, ∀ n, x.1.home = .member n → n < s.nextMember

/-- The broker of a balanced scene may be replaced by another with exact accounts. -/
theorem Balanced.withBroker (hs : s.Balanced) (hx : b.Exact (s.hand ++ s.slots.map (·.2)))
    {ds : List Dossier} {h : List Episode} :
    Balanced { s with broker := b, dossiers := ds, history := h } :=
  ⟨hx, hs.keys, hs.homes⟩

theorem Balanced.exact_hand (hs : s.Balanced) {h : Hold} {rest : List Hold}
    (hh : s.hand = h :: rest) :
    s.broker.Exact (h :: (rest ++ s.slots.map (·.2))) := by
  have hx := hs.exact
  rwa [hh] at hx

theorem Balanced.move (hs : s.Balanced) (hm : Move home s s')
    (hhome : ∀ n, home = .member n → n < s.nextMember) :
    s'.Balanced := by
  cases hm with
  | reorder h => exact ⟨hs.exact.perm (h.append_right _), hs.keys, hs.homes⟩
  | publish h => exact hs.withBroker (hs.exact.publishes h)
  | record h _ hn => exact hs.withBroker (hs.exact.publishes h)
  | withdraw h =>
      obtain ⟨rfl, -⟩ := hs.exact.wellFormed.withdraw_ok h
      exact hs.withBroker (hs.exact.removes hs.exact.wellFormed.forceRemove)
  | forget h =>
      obtain ⟨rfl, -⟩ := hs.exact.wellFormed.withdraw_ok h
      exact hs.withBroker (hs.exact.removes hs.exact.wellFormed.forceRemove)
  | take ht => exact ⟨hs.exact.takes ht, hs.keys, hs.homes⟩
  | miss h =>
      refine ⟨?_, hs.keys, hs.homes⟩
      rw [Broker.panel_error hs.exact.wellFormed h]
      exact hs.exact
  | giveBack hh =>
      exact ⟨(hs.exact_hand hh).giveBack, hs.keys, hs.homes⟩
  | @stow h rest key hh hk hk' =>
      refine ⟨?_, ?_, ?_⟩
      · refine (hs.exact_hand hh).perm ?_
        simp only [List.map_append, List.map_cons, List.map_nil, ← List.append_assoc]
        exact (List.perm_append_singleton _ _).symm
      · simp only [List.map_append, List.map_cons, List.map_nil]
        refine List.nodup_append.mpr ⟨hs.keys, List.nodup_singleton _, ?_⟩
        intro x hx y hy
        rw [List.mem_singleton.mp hy]
        exact fun heq => Keyed.get?_eq_none_iff.mp hk (heq ▸ hx)
      · intro x hx n hn
        rcases List.mem_append.mp hx with hx | hx
        · exact hs.homes x hx n hn
        · obtain rfl := List.mem_singleton.mp hx
          rcases hk' with hk' | hk'
          · exact hhome n (hk'.symm.trans hn)
          · simp [hk'] at hn
  | @fetch h key hk =>
      refine ⟨hs.exact.perm ?_, Keyed.nodup_erase hs.keys,
        fun x hx => hs.homes x (Keyed.mem_erase.mp hx).1⟩
      have hp := (Keyed.perm_erase hs.keys hk).map (·.2)
      exact (hp.append_left _).trans List.perm_middle
  | drain q =>
      refine ⟨hs.exact.perm ?_, (List.filter_sublist.map _).nodup hs.keys,
        fun x hx => hs.homes x (List.mem_of_mem_filter hx)⟩
      have hp := (List.filter_append_perm q s.slots).map (·.2)
      rw [List.map_append] at hp
      refine (hp.symm.append_left s.hand).trans ?_
      rw [← List.append_assoc]
      exact List.perm_append_comm.append_right _

/-! ## Chronicle -/

end Scene

theorem Broker.isSome_hidden? {b : Broker} {t : Ticket} :
    (b.hidden? t).isSome = (b.usage? t).isSome := by
  simp [Broker.hidden?]

/-- What became of registrations says which of them are present.  Those in `gone` are hidden, and no
others. -/
structure Recorded (gone : List Ticket) (history : List Episode) (b : Broker) : Prop where
  issued : ∀ d t, .published d t ∈ history → t.serial < b.due t
  once : ∀ d d' t, .published d t ∈ history → .published d' t ∈ history → d = d'
  ended : ∀ t, .withdrawn t ∈ history ∨ .removed t ∈ history → ∃ d, .published d t ∈ history
  present : ∀ t, (b.usage? t).isSome ↔
    (∃ d, .published d t ∈ history) ∧ .withdrawn t ∉ history ∧ .removed t ∉ history
  hidden : ∀ t x, b.hidden? t = some x → (x = true ↔ t ∈ gone)
  known : ∀ t ∈ gone, ∃ d, .published d t ∈ history

namespace Recorded

variable {gone ts : List Ticket} {history news : List Episode} {b b' : Broker} {t : Ticket}
  {o : Option Nat}

/-- A ticket that is due has not been heard of. -/
theorem fresh (h : Recorded gone history b) (ht : b.due t ≤ t.serial) :
    (∀ d, .published d t ∉ history) ∧ .withdrawn t ∉ history ∧ .removed t ∉ history ∧ t ∉ gone := by
  have hnone : ∀ d, .published d t ∉ history :=
    fun d hd => absurd (h.issued d t hd) (Nat.not_lt.mpr ht)
  refine ⟨hnone, fun hw => ?_, fun hr => ?_, fun hg => ?_⟩
  · obtain ⟨d, hd⟩ := h.ended t (Or.inl hw)
    exact hnone d hd
  · obtain ⟨d, hd⟩ := h.ended t (Or.inr hr)
    exact hnone d hd
  · obtain ⟨d, hd⟩ := h.known t hg
    exact hnone d hd

theorem mem_published {d : Option Nat} {t' : Ticket} : .published d t' ∈ history ++ [.published o t]
    ↔ .published d t' ∈ history ∨ d = o ∧ t' = t := by
  simp

theorem publishes (h : Recorded gone history b) (ha : b.Adds t b') :
    Recorded gone (history ++ [.published o t]) b' := by
  obtain ⟨hnone, hnw, hnr, hng⟩ := h.fresh (Nat.le_of_eq ha.serial.symm)
  refine ⟨?_, ?_, ?_, ?_, ?_, ?_⟩
  · intro d t' ht'
    rcases mem_published.mp ht' with ht' | ⟨-, rfl⟩
    · exact Nat.lt_of_lt_of_le (h.issued d t' ht') (ha.due t')
    · exact ha.next
  · intro d d' t' ht ht'
    rcases mem_published.mp ht with hin | ⟨hd, heq⟩
      <;> rcases mem_published.mp ht' with hin' | ⟨hd', heq'⟩
    · exact h.once d d' t' hin hin'
    · exact absurd (heq' ▸ hin) (hnone d)
    · exact absurd (heq ▸ hin') (hnone d')
    · exact hd.trans hd'.symm
  · intro t' ht'
    obtain ⟨d, hd⟩ := h.ended t' (by simpa using ht')
    exact ⟨d, mem_published.mpr (Or.inl hd)⟩
  · intro t'
    rw [ha.usage?]
    by_cases heq : t' = t
    · subst heq
      simp [hnw, hnr]
    · have := h.present t'
      simp [heq, this]
  · intro t' x hx
    rw [Broker.hidden?, ha.usage?] at hx
    by_cases heq : t' = t
    · subst heq
      obtain rfl : false = x := by simpa [Usage.fresh] using hx
      simp [hng]
    · rw [if_neg heq] at hx
      exact h.hidden t' x hx
  · intro t' ht'
    obtain ⟨d, hd⟩ := h.known t' ht'
    exact ⟨d, mem_published.mpr (Or.inl hd)⟩

/-- Registrations are taken out, and it is told which. -/
theorem removes (h : Recorded gone history b) (hr : b.Removes ts b')
    (hpub : ∀ d t, .published d t ∉ news)
    (hnews : ∀ t, (.withdrawn t ∈ news ∨ .removed t ∈ news) ↔ t ∈ ts)
    (hknown : ∀ t ∈ ts, ∃ d, .published d t ∈ history) : Recorded gone (history ++ news) b' := by
  have hold : ∀ d t, .published d t ∈ history ++ news ↔ .published d t ∈ history := by
    intro d t
    simp [hpub d t]
  refine ⟨?_, ?_, ?_, ?_, ?_, ?_⟩
  · intro d t ht
    rw [hr.due]
    exact h.issued d t ((hold d t).mp ht)
  · intro d d' t ht ht'
    exact h.once d d' t ((hold d t).mp ht) ((hold d' t).mp ht')
  · intro t ht
    simp only [List.mem_append, or_or_or_comm] at ht
    rcases ht with ht | ht
    · obtain ⟨d, hd⟩ := h.ended t ht
      exact ⟨d, (hold d t).mpr hd⟩
    · obtain ⟨d, hd⟩ := hknown t ((hnews t).mp ht)
      exact ⟨d, (hold d t).mpr hd⟩
  · intro t
    rw [hr.usage?]
    by_cases ht : t ∈ ts
    · simp only [ht, if_true, Option.isSome_none, Bool.false_eq_true, false_iff, List.mem_append]
      rintro ⟨-, hw, hrm⟩
      rcases (hnews t).mpr ht with hin | hin
      · exact hw (Or.inr hin)
      · exact hrm (Or.inr hin)
    · have hnot : .withdrawn t ∉ news ∧ .removed t ∉ news := by
        rw [← not_or, hnews t]
        exact ht
      simp only [ht, if_false, hold, List.mem_append, hnot.1, hnot.2, or_false]
      exact h.present t
  · intro t x hx
    rw [Broker.hidden?, hr.usage?] at hx
    by_cases ht : t ∈ ts
    · simp [ht] at hx
    · rw [if_neg ht] at hx
      exact h.hidden t x hx
  · intro t ht
    obtain ⟨d, hd⟩ := h.known t ht
    exact ⟨d, (hold d t).mpr hd⟩

end Recorded

namespace Scene

variable {s s' : Scene} {home : SlotHome} {gone : List Ticket} {t : Ticket} {b : Broker}

/-- What has been published through a dossier, and is present, is filed in it, and nothing else. -/
structure Filing (s : Scene) : Prop where
  members : (s.dossiers.map (·.member)).Nodup
  numbered : ∀ d ∈ s.dossiers, d.member < s.nextMember
  opened : ∀ n t, .published (some n) t ∈ s.history → n ∈ s.dossiers.map (·.member)
  filed : ∀ n t, .published (some n) t ∈ s.history → (s.broker.usage? t).isSome →
    FiledIn s.dossiers n t
  source : ∀ n t, FiledIn s.dossiers n t → .published (some n) t ∈ s.history

/-- What became of registrations says which of them are present, and where a present one is
filed. -/
structure Chronicled (gone : List Ticket) (s : Scene) : Prop
    extends Recorded gone s.history s.broker, s.Filing

namespace Chronicled

/-- A chronicle goes on through changes that make nothing present or absent, seen or unseen. -/
theorem same (hs : s.Chronicled gone) (hb : ∀ t, b.hidden? t = s.broker.hidden? t)
    (hd : ∀ t, b.due t = s.broker.due t) {hand : List Hold} {slots : List (SlotKey × Hold)} :
    Chronicled gone { s with hand, broker := b, slots } := by
  have hsome : ∀ t, (b.usage? t).isSome = (s.broker.usage? t).isSome := fun t => by
    rw [← Broker.isSome_hidden?, ← Broker.isSome_hidden?, hb t]
  exact
    { hs with
      issued := fun d t ht => hd t ▸ hs.issued d t ht
      present := fun t => by rw [hsome t, hs.present t]
      filed := fun n t ht hp => hs.filed n t ht (hsome t ▸ hp)
      hidden := fun t x hx => hs.hidden t x (hb t ▸ hx) }

/-- A registration made, and filed in the dossier of whoever made it through one. -/
theorem publishes (hs : s.Chronicled gone) (ha : s.broker.Adds t b) {o : Option Nat}
    {ds : List Dossier} (hmembers : ds.map (·.member) = s.dossiers.map (·.member))
    (hopen : ∀ n, o = some n → n ∈ s.dossiers.map (·.member))
    (hfiled : ∀ n t', FiledIn ds n t' ↔ FiledIn s.dossiers n t' ∨ o = some n ∧ t' = t) :
    Chronicled gone
      { s with broker := b, dossiers := ds, history := s.history ++ [.published o t] } where
  toRecorded := hs.toRecorded.publishes ha
  members := hmembers ▸ hs.members
  numbered := forall_member_congr (q := (· < s.nextMember)) hmembers hs.numbered
  opened := fun n t' ht' => by
    rw [hmembers]
    rcases Recorded.mem_published.mp ht' with ht' | ⟨ho, -⟩
    · exact hs.opened n t' ht'
    · exact hopen n ho.symm
  filed := fun n t' ht' hp => by
    rw [hfiled]
    rcases Recorded.mem_published.mp ht' with ht' | ⟨ho, rfl⟩
    · have hne : t' ≠ t := fun heq => (hs.fresh (Nat.le_of_eq ha.serial.symm)).1 _ (heq ▸ ht')
      rw [ha.usage?, if_neg hne] at hp
      exact Or.inl (hs.filed n t' ht' hp)
    · exact Or.inr ⟨ho.symm, rfl⟩
  source := fun n t' hf => by
    rw [Recorded.mem_published]
    rcases (hfiled n t').mp hf with hf | ⟨ho, rfl⟩
    · exact Or.inl (hs.source n t' hf)
    · exact Or.inr ⟨ho.symm, rfl⟩

/-- Registrations that have been taken out, and are not filed any more in some of the dossiers. -/
theorem removes (hs : s.Chronicled gone) {ts : List Ticket} (hr : s.broker.Removes ts b)
    {news : List Episode}
    {ds : List Dossier} (hmembers : ds.map (·.member) = s.dossiers.map (·.member))
    (hpub : ∀ d t, .published d t ∉ news)
    (hnews : ∀ t, (.withdrawn t ∈ news ∨ .removed t ∈ news) ↔ t ∈ ts)
    (hknown : ∀ t ∈ ts, ∃ d, .published d t ∈ s.history)
    (hless : ∀ n t, FiledIn ds n t → FiledIn s.dossiers n t)
    (hkept : ∀ n t, FiledIn s.dossiers n t → t ∉ ts → FiledIn ds n t) :
    Chronicled gone { s with broker := b, dossiers := ds, history := s.history ++ news } := by
  have hold : ∀ {d t}, .published d t ∈ s.history ++ news → .published d t ∈ s.history := by
    intro d t ht
    exact (List.mem_append.mp ht).resolve_right (hpub d t)
  refine { hs.toRecorded.removes hr hpub hnews hknown with
    members := hmembers ▸ hs.members
    numbered := forall_member_congr (q := (· < s.nextMember)) hmembers hs.numbered
    opened := fun n t ht => hmembers ▸ hs.opened n t (hold ht)
    filed := fun n t ht hp => ?_
    source := fun n t hf => List.mem_append_left _ (hs.source n t (hless n t hf)) }
  change (b.usage? t).isSome = true at hp
  rw [hr.usage?] at hp
  -- what is present was not taken out
  by_cases hts : t ∈ ts
  · simp [hts] at hp
  · rw [if_neg hts] at hp
    exact hkept n t (hs.filed n t (hold ht) hp) hts

theorem move (hs : s.Chronicled gone) (hb : s.Balanced) (hm : Move home s s') :
    s'.Chronicled gone := by
  have hwf := hb.exact.wellFormed
  cases hm with
  | reorder h => exact hs.same (fun _ => rfl) fun _ => rfl
  | publish h =>
      exact hs.publishes (h.adds hwf) rfl (by simp) (by simp)
  | @record r b n h _ hn =>
      refine hs.publishes (h.adds hwf) (map_member_changeIn fun _ => rfl) (fun m hm => ?_)
        fun m t => ?_
      · exact Option.some.inj hm ▸ hn
      · rw [filedIn_append hn, Option.some.injEq, eq_comm]
  | @withdraw t b h =>
      obtain ⟨rfl, u, hu, -⟩ := hwf.withdraw_ok h
      refine hs.removes hwf.forceRemove rfl (by simp) (by simp) ?_ (fun _ _ hf => hf)
        fun _ _ hf _ => hf
      intro x hx
      rw [List.mem_singleton.mp hx]
      exact ((hs.present t).mp (by simp [hu])).1
  | @forget t b n h =>
      obtain ⟨rfl, u, hu, -⟩ := hwf.withdraw_ok h
      refine hs.removes hwf.forceRemove (map_member_changeIn fun _ => rfl) (by simp) (by simp)
        ?_ ?_ ?_
      · intro x hx
        rw [List.mem_singleton.mp hx]
        exact ((hs.present t).mp (by simp [hu])).1
      · exact fun m x hf => (filedIn_without.mp hf).1
      · exact fun m x hf hx => filedIn_without.mpr ⟨hf, fun heq => hx (by simp [heq.2])⟩
  | take ht =>
      rw [ht.eq hwf]
      exact hs.same (fun t => Broker.hidden?_raise) fun t => Broker.due_revise
  | miss h =>
      rw [Broker.panel_error hwf h]
      exact hs.same (fun _ => rfl) fun _ => rfl
  | giveBack hh =>
      rw [(hb.exact_hand hh).giveBack_eq]
      exact hs.same (fun t => Broker.hidden?_lower) fun t => Broker.due_revise
  | stow hh hk hhome => exact hs.same (fun _ => rfl) fun _ => rfl
  | fetch hk => exact hs.same (fun _ => rfl) fun _ => rfl
  | drain q => exact hs.same (fun _ => rfl) fun _ => rfl

end Chronicled

/-! ## Keeping -/

theorem Tended.move (hs : s.Tended) (hb : s.Balanced) (hc : s.Chronicled gone) (hm : Move home s s') :
    s'.Tended := by
  have hwf := hb.exact.wellFormed
  have hnone : ∀ {t b}, s.broker.Publishes t b → ∀ o, .published o t ∉ s.history := fun h =>
    (hc.fresh (Nat.le_of_eq (h.adds hwf).serial.symm)).1
  have hout : ∀ {t b}, s.broker.Publishes t b → ∀ d ∈ s.dossiers, t ∉ d.tickets := fun h d hd ht =>
    hnone h _ (hc.source d.member _ ⟨d, hd, rfl, ht⟩)
  cases hm with
  | reorder h => exact hs.thin (.refl _)
  | publish h =>
      exact ⟨h.exclusive hs.exclusive, fun d hd => (hs.kept d hd).publish h (hout h d hd) (by simp)⟩
  | @record r b n h hr hn =>
      refine ⟨h.exclusive hs.exclusive, fun d' hd' => ?_⟩
      obtain ⟨d, hd, rfl⟩ := List.mem_map.mp hd'
      by_cases hdn : d.member = n
      · subst hdn
        rw [if_pos rfl]
        exact (hs.kept d hd).record (h.adds hwf).wellFormed h hr (hnone h _)
      · rw [if_neg hdn]
        exact (hs.kept d hd).publish h (hout h d hd) fun heq => hdn (Option.some.inj heq).symm
  | withdraw h =>
      obtain ⟨rfl, -⟩ := hwf.withdraw_ok h
      exact hs.trim (.forceRemove hwf) (fun d hd => ⟨d, hd, .refl d⟩) (by simp)
  | forget h =>
      obtain ⟨rfl, -⟩ := hwf.withdraw_ok h
      exact hs.trim (.forceRemove hwf) (Dossier.Trims.changeIn fun _ => .without) (by simp)
  | take ht =>
      rw [ht.eq hwf]
      exact hs.thin .revise
  | miss h =>
      rw [Broker.panel_error hwf h]
      exact hs.thin (.refl _)
  | giveBack hh =>
      rw [(hb.exact_hand hh).giveBack_eq]
      exact hs.thin .revise
  | stow hh hk hhome => exact hs.thin (.refl _)
  | fetch hk => exact hs.thin (.refl _)
  | drain q => exact hs.thin (.refl _)

/-! ## Soundness -/

/-- A scene whose counts and whose chronicle are right, and whose dossiers keep what they should. -/
structure Sound (gone : List Ticket) (s : Scene) : Prop where
  balanced : s.Balanced
  chronicled : s.Chronicled gone
  tended : s.Tended

/-- What moves leave as it is. -/
structure Leads (home : SlotHome) (s s' : Scene) : Prop where
  claims : s'.claims = s.claims
  nextMember : s'.nextMember = s.nextMember
  members : s'.dossiers.map (·.member) = s.dossiers.map (·.member)
  departures : ∀ t, t ∈ s'.broker.departures ↔ t ∈ s.broker.departures
  /-- Nothing is removed but on somebody's demand. -/
  history : ∃ news, s'.history = s.history ++ news ∧ ∀ t, .removed t ∉ news
  homes : ∀ x ∈ s'.slots, x.1.home = home ∨ x.1.home = .shared ∨ ∃ y ∈ s.slots, y.1.home = x.1.home

theorem Leads.refl : Leads home s s :=
  ⟨rfl, rfl, rfl, fun _ => .rfl, ⟨[], by simp⟩, fun x hx => Or.inr (Or.inr ⟨x, hx, rfl⟩)⟩

theorem Leads.trans {s'' : Scene} (h : Leads home s s') (h' : Leads home s' s'') :
    Leads home s s'' where
  claims := h'.claims.trans h.claims
  nextMember := h'.nextMember.trans h.nextMember
  members := h'.members.trans h.members
  departures := fun t => (h'.departures t).trans (h.departures t)
  history := by
    obtain ⟨news, hnews, hn⟩ := h.history
    obtain ⟨news', hnews', hn'⟩ := h'.history
    refine ⟨news ++ news', by rw [hnews', hnews, List.append_assoc], fun t ht => ?_⟩
    rcases List.mem_append.mp ht with ht | ht
    · exact hn t ht
    · exact hn' t ht
  homes := fun x hx => by
    rcases h'.homes x hx with hx | hx | ⟨y, hy, hyx⟩
    · exact Or.inl hx
    · exact Or.inr (Or.inl hx)
    · exact hyx ▸ h.homes y hy

theorem Balanced.leads (hb : s.Balanced) (hm : Move home s s') : Leads home s s' := by
  have hwf := hb.exact.wellFormed
  have hold : ∀ x ∈ s.slots, x.1.home = home ∨ x.1.home = .shared ∨
      ∃ y ∈ s.slots, y.1.home = x.1.home :=
    fun x hx => Or.inr (Or.inr ⟨x, hx, rfl⟩)
  have hquiet : ∃ news, s.history = s.history ++ news ∧ ∀ t, .removed t ∉ news := ⟨[], by simp⟩
  cases hm with
  | reorder h => exact ⟨rfl, rfl, rfl, fun _ => .rfl, hquiet, hold⟩
  | publish h =>
      exact ⟨rfl, rfl, rfl, fun t => by rw [(h.adds hwf).departures], ⟨[_], rfl, by simp⟩, hold⟩
  | record h _ hn =>
      exact ⟨rfl, rfl, map_member_changeIn fun _ => rfl, fun t => by rw [(h.adds hwf).departures],
        ⟨[_], rfl, by simp⟩, hold⟩
  | withdraw h =>
      exact ⟨rfl, rfl, rfl, fun _ => Broker.withdraw_departures hwf h, ⟨[_], rfl, by simp⟩, hold⟩
  | forget h =>
      exact ⟨rfl, rfl, map_member_changeIn fun _ => rfl, fun _ => Broker.withdraw_departures hwf h,
        ⟨[_], rfl, by simp⟩, hold⟩
  | take ht =>
      exact ⟨rfl, rfl, rfl, fun t => by rw [ht.eq hwf, Broker.departures_revise], hquiet, hold⟩
  | miss h => exact ⟨rfl, rfl, rfl, fun t => by rw [Broker.panel_error hwf h], hquiet, hold⟩
  | giveBack hh =>
      refine ⟨rfl, rfl, rfl, fun t => ?_, hquiet, hold⟩
      rw [(hb.exact_hand hh).giveBack_eq, Broker.departures_revise]
  | @stow h rest key hh hk hhome =>
      refine ⟨rfl, rfl, rfl, fun _ => .rfl, hquiet, fun x hx => ?_⟩
      rcases List.mem_append.mp hx with hx | hx
      · exact hold x hx
      · rw [List.mem_singleton.mp hx]
        exact hhome.imp_right Or.inl
  | fetch hk =>
    exact ⟨rfl, rfl, rfl, fun _ => .rfl, hquiet, fun x hx => hold x (Keyed.mem_erase.mp hx).1⟩
  | drain q =>
    exact ⟨rfl, rfl, rfl, fun _ => .rfl, hquiet, fun x hx => hold x (List.mem_of_mem_filter hx)⟩

theorem bounded_home {n bound : Nat} (hn : n < bound) :
    ∀ k, SlotHome.member n = .member k → k < bound := by
  intro k hk
  rwa [← SlotHome.member.inj hk]

/-- Whatever a party does that has its slots in a known place, a sound scene stays sound. -/
theorem Sound.moves (hs : s.Sound gone) (hm : Moves home s s')
    (hhome : ∀ n, home = .member n → n < s.nextMember) :
    s'.Sound gone ∧ Leads home s s' := by
  induction hm with
  | refl => exact ⟨hs, .refl⟩
  | tail _ hm ih =>
      obtain ⟨hmid, hleads⟩ := ih
      have hhome' := hhome
      rw [← hleads.nextMember] at hhome'
      exact ⟨⟨hmid.balanced.move hm hhome', hmid.chronicled.move hmid.balanced hm,
        hmid.tended.move hmid.balanced hmid.chronicled hm⟩, hleads.trans (hmid.balanced.leads hm)⟩

end Scene

end Backplane
