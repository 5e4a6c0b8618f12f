import Backplane.Proofs.Lifecycle.Lifeline
import Backplane.Proofs.Stepwise
import Mathlib.Logic.Relation
/-!
# `Backplane.Proofs.Lifecycle.Roll`: who is loaded, and what befell everybody

A roll is what can be seen of a rack if one looks only at which instances are loaded and at what
befell instances until now.  The lifecycle changes it by few kinds of passages:

    passage   whom                            what befalls it            and then
    skip      the next, if not built          —                          —
    batch     —                               —                          a batch has been begun
    spoil     the next                        load fails, dropped        gone
    join      the next                        load                       loaded, the last of all
    unwind    the last of all, loaded         dropped                    gone
    attach    one that is loaded              post-load                  post-loaded
    detach    one that is post-loaded         pre-unload                 pre-unloaded
    leave     one that no later one needs     unload, dropped            gone

The first five are the entries, by which batches are loaded or unwound.  A roll is lawful if each
instance that is loaded stands behind those that it needs, if the lifeline of each is one of those
that there can be, and if nothing has befallen anybody too early.  Every passage preserves that.

The rack is the `ModuleLoader`, an instance that of a `ModuleRecord`.
-/
namespace Backplane

/-- The place of an instance in the order of loading. -/
structure Post where
  who : Actor
  needs : List String
  batch : Nat

def Post.name (p : Post) : String := p.who.module

/-- A loaded instance. -/
structure Life extends Post where
  stage : Stage

def Life.number (l : Life) : Nat := l.who.member

/-- Who is loaded, in the order of loading, and what befell everybody. -/
structure Roll where
  lives : List Life
  turns : List Turn
  nextMember : Nat
  nextBatch : Nat

def Roll.posts (s : Roll) : List Post := s.lives.map Life.toPost

def Roll.names (s : Roll) : List String := s.posts.map Post.name

namespace Roll

/-- The passages by which batches are loaded or unwound, if modules of some names and needs are due
to be loaded. -/
inductive Entry (due : String → List String → Prop) : Roll → Roll → Prop
  | skip {s : Roll} : Entry due s { s with nextMember := s.nextMember + 1 }
  | batch {s : Roll} : Entry due s { s with nextBatch := s.nextBatch + 1 }
  | spoil {s : Roll} {who : Actor} {needs : List String} {e : ModuleError}
      (hwho : who.member = s.nextMember) (hname : who.module ∉ s.names)
      (hneeds : ∀ x ∈ needs, x ∈ s.names) (hdue : due who.module needs) :
      Entry due s
        { s with
          turns := s.turns ++ (admission who needs (some e) ++ [.dropped who])
          nextMember := s.nextMember + 1 }
  | join {s : Roll} {l : Life} (hwho : l.who.member = s.nextMember) (hname : l.name ∉ s.names)
      (hneeds : ∀ x ∈ l.needs, x ∈ s.names) (hdue : due l.name l.needs) (hstage : l.stage = .loaded)
      (hbatch : l.batch + 1 = s.nextBatch) :
      Entry due s
        { s with
          lives := s.lives ++ [l]
          turns := s.turns ++ admission l.who l.needs none
          nextMember := s.nextMember + 1 }
  | unwind {s : Roll} {before : List Life} {l : Life} (h : s.lives = before ++ [l])
      (hstage : l.stage = .loaded) :
      Entry due s { s with lives := before, turns := s.turns ++ [.dropped l.who] }

/-- One change to a roll. -/
inductive Passage : Roll → Roll → Prop
  | entry {s s' : Roll} {due : String → List String → Prop} (h : Entry due s s') : Passage s s'
  | attach {s : Roll} {before after : List Life} {l : Life} {f : Option ModuleError}
      (h : s.lives = before ++ l :: after) (hstage : l.stage = .loaded) :
      Passage s
        { s with
          lives := before ++ { l with stage := .postLoaded } :: after
          turns := s.turns ++ hookTurns l.who .postLoad f }
  | detach {s : Roll} {before after : List Life} {l : Life} {f : Option ModuleError}
      (h : s.lives = before ++ l :: after) (hstage : l.stage = .postLoaded) :
      Passage s
        { s with
          lives := before ++ { l with stage := .preUnloaded } :: after
          turns := s.turns ++ hookTurns l.who .preUnload f }
  | leave {s : Roll} {before after : List Life} {l : Life} {f : Option ModuleError}
      (h : s.lives = before ++ l :: after) (hstage : l.stage = .loaded ∨ l.stage = .preUnloaded)
      (hfree : ∀ x ∈ after, l.name ∉ x.needs) :
      Passage s { s with lives := before ++ after, turns := s.turns ++ parting l.who f }

/-- Any number of entries. -/
abbrev Entries (due : String → List String → Prop) : Roll → Roll → Prop :=
  Relation.ReflTransGen (Entry due)

/-- Any number of passages. -/
abbrev Passages : Roll → Roll → Prop := Relation.ReflTransGen Passage

theorem Entries.passages {due : String → List String → Prop} {s s' : Roll} (h : Entries due s s') :
    Passages s s' :=
  Relation.ReflTransGen.mono (fun _ _ he => Passage.entry he) _ _ h

end Roll

/-! ## The order of loading -/

/-- Whether names are distinct, everything needed stands before whoever needs it, and later batches
stand behind earlier ones. -/
structure Ordered (posts : List Post) (nextBatch : Nat) : Prop where
  names : (posts.map Post.name).Nodup
  closed : Stepwise (fun before p => ∀ x ∈ p.needs, x ∈ before.map Post.name) posts
  batches : posts.Pairwise fun p q => p.batch ≤ q.batch
  begun : ∀ p ∈ posts, p.batch < nextBatch

namespace Ordered

variable {posts before after : List Post} {p : Post} {nextBatch : Nat}

theorem empty : Ordered [] nextBatch := ⟨.nil, .nil, .nil, by simp⟩

theorem mono {nextBatch' : Nat} (h : Ordered posts nextBatch) (hle : nextBatch ≤ nextBatch') :
    Ordered posts nextBatch' :=
  { h with begun := fun p hp => Nat.lt_of_lt_of_le (h.begun p hp) hle }

theorem join (h : Ordered posts nextBatch) (hname : p.name ∉ posts.map Post.name)
    (hneeds : ∀ x ∈ p.needs, x ∈ posts.map Post.name) (hbatch : p.batch + 1 = nextBatch) :
    Ordered (posts ++ [p]) nextBatch where
  names := by
    rw [List.map_append, List.map_singleton, ← List.concat_eq_append, List.nodup_concat]
    exact ⟨hname, h.names⟩
  closed := h.closed.append_singleton hneeds
  batches := by
    refine List.pairwise_append.mpr ⟨h.batches, List.pairwise_singleton _ _, ?_⟩
    intro q hq x hx
    have hlt := h.begun q hq
    rw [← hbatch] at hlt
    rw [List.mem_singleton.mp hx]
    exact Nat.le_of_lt_succ hlt
  begun := by
    intro q hq
    rcases List.mem_append.mp hq with hq | hq
    · exact h.begun q hq
    · rw [List.mem_singleton.mp hq, ← hbatch]
      exact Nat.lt_succ_self _

/-- If nobody later needs an instance, nobody does. -/
theorem free (h : Ordered (before ++ p :: after) nextBatch) (hafter : ∀ q ∈ after, p.name ∉ q.needs) :
    ∀ q ∈ before ++ p :: after, p.name ∉ q.needs := by
  have hnames := h.names
  rw [List.map_append, List.map_cons, List.nodup_middle, List.nodup_cons] at hnames
  obtain ⟨hnew, -⟩ := hnames
  have hold : p.name ∉ before.map Post.name := fun hin => hnew (List.mem_append_left _ hin)
  intro q hq hneed
  rcases List.mem_append.mp hq with hq | hq
  · obtain ⟨front, back, rfl⟩ := List.append_of_mem hq
    have hin : p.name ∈ front.map Post.name :=
      h.closed front q (back ++ p :: after) (by simp) p.name hneed
    exact hold (by simp [List.mem_map.mp hin])
  · rcases List.mem_cons.mp hq with rfl | hq
    · exact hold (h.closed before q after rfl q.name hneed)
    · exact hafter q hq hneed

/-- One that no later one needs may go. -/
theorem remove (h : Ordered (before ++ p :: after) nextBatch)
    (hafter : ∀ q ∈ after, p.name ∉ q.needs) : Ordered (before ++ after) nextBatch := by
  have hsub : (before ++ after).Sublist (before ++ p :: after) :=
    (List.sublist_cons_self p after).append_left before
  refine ⟨(hsub.map _).nodup h.names, ?_, h.batches.sublist hsub, fun q hq => ?_⟩
  · refine h.closed.remove fun middle q hq hold x hx => ?_
    have hne : x ≠ p.name := fun heq => hafter q hq (heq ▸ hx)
    have hin := hold x hx
    rw [List.map_append, List.map_cons, List.mem_append, List.mem_cons] at hin
    rw [List.map_append, List.mem_append]
    exact hin.imp_right fun hin => hin.resolve_left hne
  · exact h.begun q (hsub.subset hq)

end Ordered

/-! ## Lifelines -/

/-- Whether the lifeline of every instance is one of those that there can be. -/
structure Traced (lives : List Life) (turns : List Turn) (nextMember : Nat) : Prop where
  numbered : (lives.map Life.number).Nodup
  issued : ∀ t ∈ turns, t.who.member < nextMember
  living : ∀ l ∈ lives, Lived l.who l.needs (some l.stage) (lifeline turns l.who.member)
  gone : ∀ t ∈ turns, t.who.member ∉ lives.map Life.number →
    ∃ needs, Lived t.who needs none (lifeline turns t.who.member)

/-- Whether all who need a module have been dropped. -/
def Undepended (turns : List Turn) (module : String) : Prop :=
  ∀ who needs, .built who needs ∈ turns → module ∈ needs → .dropped who ∈ turns

namespace Traced

variable {lives lives' : List Life} {turns news : List Turn} {next next' : Nat} {who : Actor}
  {needs : List String} {l : Life} {o : Option Stage}

theorem fresh (h : Traced lives turns next) (hwho : who.member = next) :
    lifeline turns who.member = [] :=
  lifeline_eq_nil fun t ht => Nat.ne_of_lt (hwho ▸ h.issued t ht)

theorem number_lt (h : Traced lives turns next) (hl : l ∈ lives) : l.number < next := by
  have hended := (h.living l hl).alive.1
  exact h.issued _ (mem_lifeline.mp hended).1

/-- What befalls one instance leaves the others as they were. -/
theorem befall (h : Traced lives turns next) (hnews : ∀ t ∈ news, t.who = who)
    (hlast : Lived who needs o (lifeline turns who.member ++ news))
    (hnumbered : (lives'.map Life.number).Nodup)
    (hothers : ∀ l, l.number ≠ who.member → (l ∈ lives' ↔ l ∈ lives))
    (hhere : ∀ l ∈ lives', l.number = who.member → l.who = who ∧ l.needs = needs ∧ o = some l.stage)
    (hgone : who.member ∉ lives'.map Life.number → o = none)
    (hnext : next ≤ next') (hlt : who.member < next') : Traced lives' (turns ++ news) next' := by
  have hself : lifeline (turns ++ news) who.member = lifeline turns who.member ++ news := by
    rw [lifeline_append, lifeline_eq_self hnews]
  have hsame : ∀ n, n ≠ who.member → lifeline (turns ++ news) n = lifeline turns n := by
    intro n hn
    have hnil : lifeline news n = [] := lifeline_eq_nil fun t ht => hnews t ht ▸ hn.symm
    rw [lifeline_append, hnil, List.append_nil]
  refine ⟨hnumbered, fun t ht => ?_, fun l hl => ?_, fun t ht hout => ?_⟩
  · rcases List.mem_append.mp ht with ht | ht
    · exact Nat.lt_of_lt_of_le (h.issued t ht) hnext
    · rw [hnews t ht]
      exact hlt
  · by_cases hn : l.number = who.member
    · obtain ⟨hwho, hneeds, hstage⟩ := hhere l hl hn
      rw [hwho, hneeds, ← hstage, hself]
      exact hlast
    · rw [hsame l.who.member hn]
      exact h.living l ((hothers l hn).mp hl)
  · by_cases hn : t.who.member = who.member
    · have hmem : t ∈ lifeline turns who.member ++ news := by
        rw [← hself]
        exact mem_lifeline.mpr ⟨ht, hn⟩
      rw [hlast.who_eq hmem, hself]
      exact ⟨needs, hgone (hn ▸ hout) ▸ hlast⟩
    · have hold : t ∈ turns := by
        refine (List.mem_append.mp ht).resolve_right fun hin => hn ?_
        rw [hnews t hin]
      rw [hsame _ hn]
      refine h.gone t hold fun hin => hout ?_
      obtain ⟨l, hl, hln⟩ := List.mem_map.mp hin
      rw [← hln] at hn ⊢
      exact List.mem_map_of_mem ((hothers l hn).mpr hl)

/-- Whoever is loaded has been loaded with success and has not been dropped. -/
theorem present (h : Traced lives turns next) (hl : l ∈ lives) :
    .ended l.who .load none ∈ turns ∧ .dropped l.who ∉ turns := by
  obtain ⟨hended, hkept⟩ := (h.living l hl).alive
  exact ⟨(mem_lifeline.mp hended).1, fun hin => hkept l.who (mem_lifeline.mpr ⟨hin, rfl⟩)⟩

/-- Whoever anything befell has a lifeline: that of somebody loaded, or of somebody who is gone. -/
theorem lived (h : Traced lives turns next) {t : Turn} (ht : t ∈ turns) :
    (∃ l ∈ lives, l.who = t.who ∧ Lived l.who l.needs (some l.stage) (lifeline turns t.who.member)) ∨
    t.who.member ∉ lives.map Life.number ∧
      ∃ needs, Lived t.who needs none (lifeline turns t.who.member) := by
  by_cases hin : t.who.member ∈ lives.map Life.number
  · obtain ⟨l, hl, hln⟩ := List.mem_map.mp hin
    have hlived := h.living l hl
    rw [show l.who.member = t.who.member from hln] at hlived
    exact Or.inl ⟨l, hl, (hlived.who_eq (mem_lifeline.mpr ⟨ht, rfl⟩)).symm, hlived⟩
  · exact Or.inr ⟨hin, h.gone t ht hin⟩

/-- Nothing befalls anybody after it has been dropped. -/
theorem quiet (h : Traced lives turns next) :
    Stepwise (fun past t => .dropped t.who ∉ past) turns := by
  intro past t rest heq hdropped
  have ht : t ∈ turns := by simp [heq]
  have hrest : lifeline (t :: rest) t.who.member = t :: lifeline rest t.who.member :=
    List.filter_cons_of_pos (by simp)
  have hsplit : lifeline turns t.who.member =
      lifeline past t.who.member ++ t :: lifeline rest t.who.member := by
    rw [heq, lifeline_append, hrest]
  have hpast : .dropped t.who ∈ lifeline past t.who.member := mem_lifeline.mpr ⟨hdropped, rfl⟩
  rcases h.lived ht with ⟨l, -, hwho, hlived⟩ | ⟨-, needs, hlived⟩
  · refine hlived.alive.2 t.who ?_
    rw [hsplit]
    exact List.mem_append_left _ hpast
  · obtain ⟨front, hfront, hkept⟩ := hlived.gone
    -- the last turn of the lifeline is not among those before another
    have hline : lifeline past t.who.member <+: front ++ [.dropped t.who] := by
      rw [← hfront, hsplit]
      exact List.prefix_append _ _
    have hshort : (lifeline past t.who.member).length ≤ front.length := by
      have hlen := congrArg List.length (hsplit.symm.trans hfront)
      simp only [List.length_append, List.length_cons, List.length_nil] at hlen
      omega
    have hlast : lifeline past t.who.member <+: front :=
      List.prefix_of_prefix_length_le hline (List.prefix_append _ _) hshort
    exact hkept t.who (hlast.subset hpast)

/-- Instances are told apart by their numbers. -/
theorem who_eq (h : Traced lives turns next) {t u : Turn} (ht : t ∈ turns) (hu : u ∈ turns)
    (hn : t.who.member = u.who.member) : t.who = u.who := by
  have hline : u ∈ lifeline turns t.who.member := mem_lifeline.mpr ⟨hu, hn.symm⟩
  rcases h.lived ht with ⟨l, -, hwho, hlived⟩ | ⟨-, needs, hlived⟩
  · exact hwho.symm.trans (hlived.who_eq hline).symm
  · exact (hlived.who_eq hline).symm

/-- Whoever anything befell has been built. -/
theorem built (h : Traced lives turns next) {t : Turn} (ht : t ∈ turns) :
    ∃ needs, .built t.who needs ∈ turns := by
  rcases h.lived ht with ⟨l, -, hwho, hlived⟩ | ⟨-, needs, hlived⟩
  · exact ⟨l.needs, (mem_lifeline.mp (hlived.mem_built.mpr ⟨hwho.symm, rfl⟩)).1⟩
  · exact ⟨needs, (mem_lifeline.mp (hlived.mem_built.mpr ⟨rfl, rfl⟩)).1⟩

theorem hooks (h : Traced lives turns next) {t : Turn} (ht : t ∈ turns) :
    hooksOf turns t.who.member ∈ hookOrders := by
  rcases h.lived ht with ⟨l, -, -, hlived⟩ | ⟨-, needs, hlived⟩
  · exact hooksAt_subset _ hlived.hooks
  · exact hooksAt_subset _ hlived.hooks

/-- Whoever is not there any more has been dropped, and only once. -/
theorem count_dropped (h : Traced lives turns next) {t : Turn} (ht : t ∈ turns)
    (hout : t.who.member ∉ lives.map Life.number) : turns.count (.dropped t.who) = 1 := by
  obtain ⟨needs, hlived⟩ := h.gone t ht hout
  obtain ⟨past, rest, hsplit⟩ := List.append_of_mem (mem_lifeline.mp hlived.dropped).1
  have hpast : .dropped t.who ∉ past := h.quiet past (.dropped t.who) rest hsplit
  have hrest : .dropped t.who ∉ rest := by
    intro hin
    obtain ⟨middle, after, rfl⟩ := List.append_of_mem hin
    exact h.quiet (past ++ .dropped t.who :: middle) (.dropped t.who) after (by simp [hsplit])
      (by simp [Turn.who])
  rw [hsplit, List.count_append, List.count_cons_self, List.count_eq_zero.mpr hpast,
    List.count_eq_zero.mpr hrest]

/-- If nobody who is loaded needs a module, all who did are gone. -/
theorem undepended (h : Traced lives turns next) {module : String}
    (hfree : ∀ l ∈ lives, module ∉ l.needs) : Undepended turns module := by
  intro who needs hbuilt hmem
  have hline : .built who needs ∈ lifeline turns who.member := mem_lifeline.mpr ⟨hbuilt, rfl⟩
  by_cases hin : who.member ∈ lives.map Life.number
  · obtain ⟨l, hl, hln⟩ := List.mem_map.mp hin
    have hlived := h.living l hl
    rw [show l.who.member = who.member from hln] at hlived
    obtain ⟨-, rfl⟩ := hlived.mem_built.mp hline
    exact absurd hmem (hfree l hl)
  · obtain ⟨needs', hlived⟩ := h.gone _ hbuilt hin
    exact (mem_lifeline.mp hlived.dropped).1

/-- The next instance joins. -/
theorem join (h : Traced lives turns next) (hwho : l.who.member = next) (hstage : l.stage = .loaded) :
    Traced (lives ++ [l]) (turns ++ admission l.who l.needs none) (next + 1) := by
  have hlast : Lived l.who l.needs (some .loaded)
      (lifeline turns l.who.member ++ admission l.who l.needs none) := by
    rw [h.fresh hwho]
    exact .loaded
  have hnew : l.number ∉ lives.map Life.number := by
    intro hin
    obtain ⟨x, hx, hxn⟩ := List.mem_map.mp hin
    have hlt := h.number_lt hx
    rw [hxn] at hlt
    exact Nat.ne_of_lt hlt hwho
  refine h.befall (fun t => Lived.loaded.who_eq) hlast ?_ (fun x hx => ?_) (fun x hx hxn => ?_)
    (fun hout => ?_) (Nat.le_succ _) (hwho ▸ Nat.lt_succ_self _)
  · rw [List.map_append, List.map_singleton, ← List.concat_eq_append, List.nodup_concat]
    exact ⟨hnew, h.numbered⟩
  · have hne : x ≠ l := fun heq => hx (heq ▸ rfl)
    simp [hne]
  · rcases List.mem_append.mp hx with hx | hx
    · exact absurd ((show x.number = l.number from hxn) ▸ List.mem_map_of_mem hx) hnew
    · rw [List.mem_singleton.mp hx]
      exact ⟨rfl, rfl, by rw [hstage]⟩
  · exact absurd (List.mem_map_of_mem (List.mem_append_right _ (List.mem_singleton_self l))) hout

/-- The next instance fails to load. -/
theorem spoil {e : ModuleError} (h : Traced lives turns next) (hwho : who.member = next) :
    Traced lives (turns ++ (admission who needs (some e) ++ [.dropped who])) (next + 1) := by
  have hlast : Lived who needs none
      (lifeline turns who.member ++ (admission who needs (some e) ++ [.dropped who])) := by
    rw [h.fresh hwho]
    exact .stumbled
  refine h.befall (fun t => Lived.stumbled.who_eq) hlast h.numbered (fun x hx => .rfl)
    (fun x hx hxn => ?_) (fun _ => rfl) (Nat.le_succ _) (hwho ▸ Nat.lt_succ_self _)
  exact absurd (hxn.trans hwho) (Nat.ne_of_lt (h.number_lt hx))

section Split

variable {before after : List Life}

theorem number_ne {x : Life} (h : Traced (before ++ l :: after) turns next)
    (hx : x ∈ before ++ after) : x.number ≠ l.number := by
  have hnumbered := h.numbered
  rw [List.map_append, List.map_cons, List.nodup_middle, List.nodup_cons, ← List.map_append]
    at hnumbered
  exact fun heq => hnumbered.1 (heq ▸ List.mem_map_of_mem hx)

/-- One instance moves on to another stage. -/
theorem restage {s : Stage} (h : Traced (before ++ l :: after) turns next)
    (hnews : ∀ t ∈ news, t.who = l.who)
    (hlast : Lived l.who l.needs (some s) (lifeline turns l.who.member ++ news)) :
    Traced (before ++ { l with stage := s } :: after) (turns ++ news) next := by
  have hl : l ∈ before ++ l :: after := by simp
  have hnumbers : (before ++ { l with stage := s } :: after).map Life.number =
      (before ++ l :: after).map Life.number := by
    rw [List.map_append, List.map_append]
    rfl
  refine h.befall hnews hlast (hnumbers ▸ h.numbered) (fun x hx => ?_) (fun x hx hxn => ?_)
    (fun hout => ?_) (Nat.le_refl _) (h.number_lt hl)
  · have hne : x ≠ l := fun heq => hx (heq ▸ rfl)
    have hne' : x ≠ { l with stage := s } := fun heq => hx (heq ▸ rfl)
    simp [hne, hne']
  · by_cases hself : x = { l with stage := s }
    · rw [hself]
      exact ⟨rfl, rfl, rfl⟩
    · have hother : x ∈ before ++ after := by simpa [hself] using hx
      exact absurd hxn (h.number_ne hother)
  · rw [hnumbers] at hout
    exact absurd (List.mem_map_of_mem hl) hout

/-- One instance goes. -/
theorem depart (h : Traced (before ++ l :: after) turns next) (hnews : ∀ t ∈ news, t.who = l.who)
    (hlast : Lived l.who l.needs none (lifeline turns l.who.member ++ news)) :
    Traced (before ++ after) (turns ++ news) next := by
  have hl : l ∈ before ++ l :: after := by simp
  have hsub : (before ++ after).Sublist (before ++ l :: after) :=
    (List.sublist_cons_self l after).append_left before
  refine h.befall hnews hlast ((hsub.map _).nodup h.numbered) (fun x hx => ?_) (fun x hx hxn => ?_)
    (fun _ => rfl) (Nat.le_refl _) (h.number_lt hl)
  · have hne : x ≠ l := fun heq => hx (heq ▸ rfl)
    simp [hne]
  · exact absurd hxn (h.number_ne hx)

end Split

end Traced

/-! ## What comes before what -/

/-- Whether what befalls an instance has not come too early.  Before its first hook begins it has
been built, and all that it needs has been loaded with success and is there; and before its last
hook begins, or it is dropped, all who need it have been dropped. -/
def Heeds (past : List Turn) : Turn → Prop
  | .began who .load =>
    (∃ needs, .built who needs ∈ past) ∧ ∀ needs, .built who needs ∈ past → ∀ x ∈ needs,
      ∃ dep : Actor, dep.module = x ∧ .ended dep .load none ∈ past ∧ .dropped dep ∉ past
  | .began dep .unload => Undepended past dep.module
  | .dropped dep => Undepended past dep.module
  | _ => True

section Heeds

variable {turns news : List Turn} {who : Actor} {needs : List String} {f : Option ModuleError}
  {module : String}

theorem Undepended.append (h : Undepended turns module)
    (hnews : ∀ who needs, .built who needs ∈ news → module ∉ needs) :
    Undepended (turns ++ news) module := by
  intro who needs hbuilt hmem
  rcases List.mem_append.mp hbuilt with hbuilt | hbuilt
  · exact List.mem_append_left _ (h who needs hbuilt hmem)
  · exact absurd hmem (hnews who needs hbuilt)

/-- A new instance has all that it needs. -/
theorem heeds_admission (h : Stepwise Heeds turns)
    (hfresh : ∀ t ∈ turns, t.who ≠ who)
    (hneeds : ∀ x ∈ needs, ∃ dep : Actor, dep.module = x ∧ .ended dep .load none ∈ turns ∧
      .dropped dep ∉ turns) :
    Stepwise Heeds (turns ++ admission who needs f) := by
  refine Stepwise.append_iff.mpr ⟨h, ?_⟩
  simp only [admission, hookTurns, Stepwise.cons_iff, Stepwise.nil, Heeds, true_and, and_true]
  refine ⟨⟨needs, by simp⟩, fun needs' hbuilt x hx => ?_⟩
  have heq : needs' = needs := by
    rcases List.mem_append.mp hbuilt with hold | hnew
    · exact absurd rfl (hfresh _ hold)
    · simpa using hnew
  obtain ⟨dep, hname, hended, hkept⟩ := hneeds x (heq ▸ hx)
  exact ⟨dep, hname, List.mem_append_left _ hended, by simpa using hkept⟩

theorem heeds_dropped (h : Stepwise Heeds turns) (hfree : Undepended turns who.module) :
    Stepwise Heeds (turns ++ [.dropped who]) :=
  h.append_singleton hfree

theorem heeds_parting (h : Stepwise Heeds turns) (hfree : Undepended turns who.module) :
    Stepwise Heeds (turns ++ parting who f) := by
  refine Stepwise.append_iff.mpr ⟨h, ?_⟩
  simp only [parting, hookTurns, List.cons_append, List.nil_append, Stepwise.cons_iff, Stepwise.nil,
    Heeds, true_and, and_true, List.append_nil]
  exact ⟨hfree, hfree.append (by simp)⟩

/-- Nothing has to come before the hooks between the first and the last. -/
theorem heeds_between {hook : Hook} (h : Stepwise Heeds turns) (hload : hook ≠ .load)
    (hunload : hook ≠ .unload) : Stepwise Heeds (turns ++ hookTurns who hook f) := by
  refine Stepwise.append_iff.mpr ⟨h, ?_⟩
  cases hook with
  | load => exact absurd rfl hload
  | unload => exact absurd rfl hunload
  | _ => simp only [hookTurns, Stepwise.cons_iff, Stepwise.nil, Heeds, and_self]

end Heeds

/-! ## Lawful rolls -/

namespace Roll

variable {s s' : Roll} {due : String → List String → Prop}

structure Lawful (s : Roll) : Prop where
  ordered : Ordered s.posts s.nextBatch
  traced : Traced s.lives s.turns s.nextMember
  heeded : Stepwise Heeds s.turns

theorem Lawful.empty {nextMember nextBatch : Nat} : Lawful ⟨[], [], nextMember, nextBatch⟩ :=
  ⟨.empty, ⟨.nil, by simp, by simp, by simp⟩, .nil⟩

theorem posts_split {before after : List Life} {l : Life} (h : s.lives = before ++ l :: after) :
    s.posts = before.map Life.toPost ++ l.toPost :: after.map Life.toPost := by
  rw [posts, h, List.map_append, List.map_cons]

/-- All that a new instance needs is there. -/
theorem Lawful.provided (h : s.Lawful) {x : String} (hx : x ∈ s.names) :
    ∃ dep : Actor, dep.module = x ∧ .ended dep .load none ∈ s.turns ∧ .dropped dep ∉ s.turns := by
  obtain ⟨p, hp, rfl⟩ := List.mem_map.mp hx
  obtain ⟨l, hl, rfl⟩ := List.mem_map.mp hp
  exact ⟨l.who, rfl, h.traced.present hl⟩

theorem Lawful.fresh (h : s.Lawful) {who : Actor} (hwho : who.member = s.nextMember) :
    ∀ t ∈ s.turns, t.who ≠ who := by
  intro t ht heq
  have hlt := h.traced.issued t ht
  rw [heq, hwho] at hlt
  exact Nat.lt_irrefl _ hlt

/-- Nobody needs a module whose name is new. -/
theorem Lawful.unneeded (h : s.Lawful) {module : String} (hname : module ∉ s.names) :
    ∀ l ∈ s.lives, module ∉ l.needs := by
  intro l hl hneed
  obtain ⟨before, hclosed, hsub⟩ := h.ordered.closed.exists_of_mem (List.mem_map_of_mem hl)
  exact hname ((List.map_subset _ hsub) (hclosed module hneed))

/-- Nobody needs one that no later one needs. -/
theorem Lawful.free (h : s.Lawful) {before after : List Life} {l : Life}
    (hlives : s.lives = before ++ l :: after) (hafter : ∀ x ∈ after, l.name ∉ x.needs) :
    ∀ x ∈ s.lives, l.name ∉ x.needs := by
  have hordered := h.ordered
  rw [posts_split hlives] at hordered
  intro x hx
  refine hordered.free ?_ x.toPost ?_
  · intro q hq
    obtain ⟨y, hy, rfl⟩ := List.mem_map.mp hq
    exact hafter y hy
  · rw [← posts_split hlives]
    exact List.mem_map_of_mem hx

theorem Lawful.remove (h : s.Lawful) {before after : List Life} {l : Life}
    (hlives : s.lives = before ++ l :: after) (hafter : ∀ x ∈ after, l.name ∉ x.needs) :
    Ordered ((before ++ after).map Life.toPost) s.nextBatch := by
  have hordered := h.ordered
  rw [posts_split hlives] at hordered
  rw [List.map_append]
  refine hordered.remove fun q hq => ?_
  obtain ⟨y, hy, rfl⟩ := List.mem_map.mp hq
  exact hafter y hy

/-- The lifeline of somebody who is loaded. -/
theorem Lawful.living (h : s.Lawful) {before after : List Life} {l : Life}
    (hlives : s.lives = before ++ l :: after) :
    Lived l.who l.needs (some l.stage) (lifeline s.turns l.who.member) :=
  h.traced.living l (by simp [hlives])

/-- One instance that no later one needs goes. -/
theorem Lawful.depart {before after : List Life} {l : Life} {news : List Turn} (h : s.Lawful)
    (hlives : s.lives = before ++ l :: after) (hafter : ∀ x ∈ after, l.name ∉ x.needs)
    (hnews : ∀ t ∈ news, t.who = l.who)
    (hlast : Lived l.who l.needs none (lifeline s.turns l.who.member ++ news))
    (hheeds : Undepended s.turns l.name → Stepwise Heeds (s.turns ++ news)) :
    Lawful { s with lives := before ++ after, turns := s.turns ++ news } := by
  have htraced := h.traced
  rw [hlives] at htraced
  exact ⟨h.remove hlives hafter, htraced.depart hnews hlast,
    hheeds (h.traced.undepended (h.free hlives hafter))⟩

theorem Lawful.entry (h : s.Lawful) (he : Entry due s s') : s'.Lawful := by
  cases he with
  | skip =>
      have htraced : Traced s.lives s.turns (s.nextMember + 1) :=
        { h.traced with issued := fun t ht => Nat.lt_succ_of_lt (h.traced.issued t ht) }
      exact ⟨h.ordered, htraced, h.heeded⟩
  | batch => exact ⟨h.ordered.mono (Nat.le_succ _), h.traced, h.heeded⟩
  | @spoil who needs e hwho hname hneeds hdue =>
      have hadmitted : Stepwise Heeds (s.turns ++ admission who needs (some e)) :=
        heeds_admission h.heeded (h.fresh hwho) fun x hx => h.provided (hneeds x hx)
      have hfree : Undepended (s.turns ++ admission who needs (some e)) who.module := by
        refine (h.traced.undepended (h.unneeded hname)).append fun who' needs' hbuilt hmem => ?_
        obtain ⟨-, rfl⟩ : who' = who ∧ needs' = needs := by
          simpa [admission, hookTurns] using hbuilt
        exact hname (hneeds _ hmem)
      refine ⟨h.ordered, h.traced.spoil hwho, ?_⟩
      show Stepwise Heeds (s.turns ++ (admission who needs (some e) ++ [.dropped who]))
      rw [← List.append_assoc]
      exact heeds_dropped hadmitted hfree
  | @join l hwho hname hneeds hdue hstage hbatch =>
      refine ⟨?_, h.traced.join hwho hstage, ?_⟩
      · show Ordered ((s.lives ++ [l]).map Life.toPost) s.nextBatch
        rw [List.map_append]
        exact h.ordered.join hname hneeds hbatch
      · exact heeds_admission h.heeded (h.fresh hwho) fun x hx => h.provided (hneeds x hx)
  | @unwind before l hlives hstage =>
      have hdeparted := h.depart hlives (by simp) (by simp [Turn.who])
        (.unwound (hstage ▸ h.living hlives)) (heeds_dropped h.heeded)
      rwa [List.append_nil] at hdeparted

/-- One instance has a hook between the first and the last, and moves on to another stage. -/
theorem Lawful.restage {before after : List Life} {l : Life} {hook : Hook} {stage : Stage}
    {f : Option ModuleError} (h : s.Lawful) (hlives : s.lives = before ++ l :: after)
    (hlast : Lived l.who l.needs (some stage)
      (lifeline s.turns l.who.member ++ hookTurns l.who hook f))
    (hload : hook ≠ .load) (hunload : hook ≠ .unload) :
    Lawful
      { s with
        lives := before ++ { l with stage } :: after
        turns := s.turns ++ hookTurns l.who hook f } := by
  have htraced := h.traced
  have hordered := h.ordered
  rw [hlives] at htraced
  rw [posts_split hlives] at hordered
  refine ⟨?_, htraced.restage (by simp [hookTurns, Turn.who]) hlast,
    heeds_between h.heeded hload hunload⟩
  rw [posts_split rfl]
  exact hordered

/-- Every passage preserves that a roll is lawful. -/
theorem Lawful.passage (h : s.Lawful) (hp : Passage s s') : s'.Lawful := by
  cases hp with
  | entry he => exact h.entry he
  | attach hlives hstage =>
      exact h.restage hlives (.attached (hstage ▸ h.living hlives)) (by simp) (by simp)
  | detach hlives hstage =>
      exact h.restage hlives (.detached (hstage ▸ h.living hlives)) (by simp) (by simp)
  | leave hlives hstage hafter =>
      exact h.depart hlives hafter (by simp [parting, hookTurns, Turn.who])
        (.unloaded (h.living hlives) hstage) (heeds_parting h.heeded)

theorem Lawful.passages (h : s.Lawful) (hp : Passages s s') : s'.Lawful := by
  induction hp with
  | refl => exact h
  | tail _ hp ih => exact ih.passage hp

/-- What befell instances is only ever added to. -/
theorem Passage.turns_extend (h : Passage s s') : s.turns <+: s'.turns := by
  cases h with
  | entry he =>
      cases he with
      | skip => exact List.prefix_rfl
      | batch => exact List.prefix_rfl
      | _ => exact List.prefix_append _ _
  | _ => exact List.prefix_append _ _

theorem Passages.turns_extend (h : Passages s s') : s.turns <+: s'.turns := by
  induction h with
  | refl => exact List.prefix_rfl
  | tail _ hp ih => exact ih.trans hp.turns_extend

/-! ## Entries -/

/-- What entries have brought about: only what was due has been built, with new numbers, and no hooks
have been run but first ones. -/
structure Admitted (due : String → List String → Prop) (s s' : Roll) (news : List Turn) : Prop where
  turns : s'.turns = s.turns ++ news
  later : s.nextMember ≤ s'.nextMember
  loads : ∀ who hook, .began who hook ∈ news → hook = .load
  built : ∀ who needs, .built who needs ∈ news → s.nextMember ≤ who.member ∧ due who.module needs

/-- Entries run no hook of somebody who is not there afterwards but the first. -/
theorem Admitted.spoilt {news : List Turn} {who : Actor} {needs : List String}
    (ha : Admitted due s s' news) (h : s.Lawful) (h' : s'.Lawful) (hbuilt : .built who needs ∈ news)
    (hout : who.member ∉ s'.lives.map Life.number) :
    hooksOf s'.turns who.member = [.load] ∧ .dropped who ∈ s'.turns := by
  have hin : .built who needs ∈ s'.turns := ha.turns ▸ List.mem_append_right _ hbuilt
  obtain ⟨needs', hlived⟩ := h'.traced.gone _ hin hout
  refine ⟨?_, (mem_lifeline.mp hlived.dropped).1⟩
  have hfresh : lifeline s.turns who.member = [] := lifeline_eq_nil fun t ht hn => by
    have hlt := h.traced.issued t ht
    rw [hn] at hlt
    exact Nat.not_lt.mpr (ha.built who needs hbuilt).1 hlt
  have honly : ∀ hook ∈ hooksOf s'.turns who.member, hook = .load := by
    intro hook hhook
    rw [hooksOf, ha.turns, lifeline_append, hfresh, List.nil_append] at hhook
    obtain ⟨t, ht, hhook⟩ := List.mem_filterMap.mp hhook
    cases t with
    | began x hook' =>
        obtain rfl := Option.some.inj hhook
        exact ha.loads x hook' (mem_lifeline.mp ht).1
    | _ => simp [Turn.hook?] at hhook
  have hhooks : hooksOf s'.turns who.member ∈ hooksAt none := hlived.hooks
  simp only [hooksAt, List.mem_cons, List.not_mem_nil, or_false] at hhooks
  rcases hhooks with heq | heq | heq
  · exact heq
  · simp [heq] at honly
  · simp [heq] at honly

theorem Entry.admitted (h : Entry due s s') : ∃ news, Admitted due s s' news := by
  cases h with
  | skip => exact ⟨[], by simp, Nat.le_succ _, by simp, by simp⟩
  | batch => exact ⟨[], by simp, Nat.le_refl _, by simp, by simp⟩
  | spoil hwho _ _ hdue =>
      exact ⟨_, rfl, Nat.le_succ _, by simp [admission, hookTurns],
        by simp [admission, hookTurns, hwho, hdue]⟩
  | @join l hwho _ _ hdue =>
      have hdue' : due l.who.module l.needs := hdue
      exact ⟨_, rfl, Nat.le_succ _, by simp [admission, hookTurns],
        by simp [admission, hookTurns, hwho, hdue']⟩
  | unwind => exact ⟨_, rfl, Nat.le_refl _, by simp, by simp⟩

theorem Entries.admitted (h : Entries due s s') : ∃ news, Admitted due s s' news := by
  induction h with
  | refl => exact ⟨[], by simp, Nat.le_refl _, by simp, by simp⟩
  | tail _ he ih =>
      obtain ⟨news, hold⟩ := ih
      obtain ⟨more, hnew⟩ := he.admitted
      refine ⟨news ++ more, ?_, Nat.le_trans hold.later hnew.later, fun who hook hin => ?_,
        fun who needs hin => ?_⟩
      · rw [hnew.turns, hold.turns, List.append_assoc]
      · rcases List.mem_append.mp hin with hin | hin
        · exact hold.loads who hook hin
        · exact hnew.loads who hook hin
      · rcases List.mem_append.mp hin with hin | hin
        · exact hold.built who needs hin
        · exact (hnew.built who needs hin).imp_left (Nat.le_trans hold.later)

end Roll

end Backplane
