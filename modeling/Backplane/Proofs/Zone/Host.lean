import Backplane.Proofs.Zone.Modules
import Backplane.Proofs.Zone.Settings
import Backplane.Zone.Host
/-!
# `Backplane.Proofs.Zone.Host`: runs end well, or do not begin

A run with nothing to load but the modules that come with the host waits for a signal just if its
configuration can be had and is admissible, and its manifest can be read and is valid.  Then, on the
signal, everybody is detached and unloaded at the first try, since nobody has come to refer to
anything; and any other run fails before it waits.

| what there is | exit | waits |
| :-- | :-- | :-- |
| the file can be had, is admissible, and the manifest is valid | 0 | yes |
| the file is there and cannot be read, or cannot be created | 1 | no |
| the settings have a flaw | 1 | no |
| the manifest cannot be read, or is not valid | 1 | no |

A configuration that is there is left as it is; one that is missing is created, with the defaults,
whatever comes of the run then.

This is the `Application` of the zone host, with its `AppConfig` and its `ModulesConfig`.
-/
namespace Backplane.Zone

variable {i : Invocation} {c : CommandLine} {signal : Signal} {es : Toml.Entries} {s : Settings}
  {folder : Folder} {m : Manifest} {h h' : Host}

/-! ## Hosts and reports -/

namespace Host

/-- Whether a host has only reported something. -/
structure Reports (h h' : Host) : Prop where
  settings : h'.settings = h.settings
  folder : h'.folder = h.folder
  rack : h.rack.Reported h'.rack

theorem Reports.refl : h.Reports h := ⟨rfl, rfl, .refl⟩

theorem Reports.trans {h'' : Host} (hr : h.Reports h') (hr' : h'.Reports h'') : h.Reports h'' :=
  ⟨hr'.settings.trans hr.settings, hr'.folder.trans hr.folder, hr.rack.trans hr'.rack⟩

theorem reports_report {level : Level} {origin : Origin} {text : String} :
    h.Reports (h.report level origin text) :=
  ⟨rfl, rfl, .report⟩

theorem reports_foldl {α : Type} {xs : List α} {text : α → String} :
    h.Reports (xs.foldl (fun h x => h.tell (text x)) h) := by
  induction xs generalizing h with
  | nil => exact .refl
  | cons x xs ih => exact reports_report.trans ih

theorem reports_tellLoaded {loaded attached : Nat} : h.Reports (h.tellLoaded loaded attached) :=
  ((reports_report.trans reports_foldl).trans reports_report).trans reports_report

theorem reports_hear : h.Reports (h.hear signal) := reports_report.trans reports_report

/-! ## Operations -/

section Operations

variable {α : Type} {what : String} {f : Rack → Except LifecycleError α × Rack} {x : α}
  {e : LifecycleError}

theorem operate_ok (hf : (f h.rack).1 = .ok x) :
    h.operate what f = (some x, { h with rack := (f h.rack).2 }) := by
  simp only [operate, hf]

theorem operate_error (hf : (f h.rack).1 = .error e) :
    h.operate what f = (none, { h with rack := (f h.rack).2 }.complain what e) := by
  simp only [operate, hf]

/-- An operation has no part in the folder. -/
theorem folder_operate : (h.operate what f).2.folder = h.folder := by
  cases hf : (f h.rack).1 with
  | ok x => rw [operate_ok hf]
  | error e => rw [operate_error hf]; rfl

end Operations

/-! ## Loading and attaching -/

section Attaching

variable {depot : Depot}

/-- Where a host looks for its manifest. -/
def source (h : Host) : Source := .inFolder h.folder h.settings.modulesFile

/-- What loading comes to, with which attaching begins. -/
def loading (h : Host) : Option (List String) × Host :=
  (h.tell ("🔌 Loading modules from " ++ h.settings.modulesFile)).operate
    ("loading modules from " ++ h.settings.modulesFile ++ ": ") (·.load h.source)

theorem attach_eq : h.attach = match h.loading with
    | (none, h) => (false, h)
    | (some names, h) =>
      match h.operate "" Rack.postLoad with
      | (none, h) => (false, h)
      | (some attached, h) => (true, h.tellLoaded names.length attached) := rfl

theorem folder_attach : h.attach.2.folder = h.folder := by
  have hloading : h.loading.2.folder = h.folder := folder_operate
  rw [attach_eq]
  obtain ⟨⟨names, h₁⟩, hfirst⟩ : ∃ x, h.loading = x := ⟨_, rfl⟩
  rw [hfirst] at hloading ⊢
  cases names with
  | none => exact hloading
  | some names =>
      have hattaching : (h₁.operate "" Rack.postLoad).2.folder = h₁.folder := folder_operate
      obtain ⟨⟨attached, h₂⟩, hsecond⟩ : ∃ x, h₁.operate "" Rack.postLoad = x := ⟨_, rfl⟩
      simp only
      rw [hsecond] at hattaching ⊢
      cases attached with
      | none => exact hattaching.trans hloading
      | some attached => exact reports_tellLoaded.folder.trans (hattaching.trans hloading)

/-- With a valid manifest everything in it is loaded and attached. -/
theorem attach_valid (hb : Bare depot h.rack) (hs : Stocks depot) (hread : h.source.read = .ok m)
    (hvalid : m.Valid depot []) :
    ∃ h', h.attach = (true, h') ∧ Carries m .postLoaded h'.rack := by
  let begun := h.tell ("🔌 Loading modules from " ++ h.settings.modulesFile)
  have hbegun : Bare depot begun.rack := hb.reported .report
  obtain ⟨hok, hcarries⟩ := hbegun.load_valid hs hread hvalid
  let loaded : Host := { begun with rack := (begun.rack.load h.source).2 }
  have hloading : h.loading = (some loaded.rack.names, loaded) := operate_ok hok
  obtain ⟨⟨attached, hattached⟩, hdone⟩ := hcarries.postLoad
  let done : Host := { loaded with rack := loaded.rack.postLoad.2 }
  have hattaching : loaded.operate "" Rack.postLoad = (some attached, done) := operate_ok hattached
  refine ⟨done.tellLoaded loaded.rack.names.length attached, ?_, ?_⟩
  · rw [attach_eq, hloading]
    simp only
    rw [hattaching]
  · exact hdone.reported reports_tellLoaded.rack

/-- Without one the run goes no further. -/
theorem attach_invalid (hb : Bare depot h.rack)
    (hinvalid : ∀ m, h.source.read = .ok m → ¬ m.Valid depot []) : h.attach.1 = false := by
  let begun := h.tell ("🔌 Loading modules from " ++ h.settings.modulesFile)
  have hbegun : Bare depot begun.rack := hb.reported .report
  obtain ⟨e, herror⟩ := hbegun.load_invalid hinvalid
  have hloading : ∃ h', h.loading = (none, h') := ⟨_, operate_error herror⟩
  obtain ⟨h', hloading⟩ := hloading
  rw [attach_eq, hloading]

end Attaching

/-! ## Taking everything down -/

theorem unload_ok {retries : Nat} {names : List String} (hu : h.rack.unloadAll.1 = .ok names) :
    h.unload retries = (true, { h with rack := h.rack.unloadAll.2 }.tell
      ("👋 Unloaded " ++ toString names.length ++ " modules")) := by
  rw [unload.eq_def]
  simp only [hu]

theorem folder_unload {retries : Nat} : (h.unload retries).2.folder = h.folder := by
  induction retries generalizing h with
  | zero =>
      cases hu : h.rack.unloadAll.1 with
      | ok names => rw [unload_ok hu]; rfl
      | error e => rw [unload.eq_def]; simp only [hu]; rfl
  | succ retries ih =>
      cases hu : h.rack.unloadAll.1 with
      | ok names => rw [unload_ok hu]; rfl
      | error e =>
          rw [unload.eq_def]
          simp only [hu]
          cases e.isBusy with
          | true => exact ih
          | false => rfl

theorem folder_stop : (h.stop signal).2.folder = h.folder := by
  have hdetaching : ((h.hear signal).operate "" Rack.preUnload).2.folder = h.folder := folder_operate
  rw [stop, shutdown]
  obtain ⟨⟨detached, h₁⟩, hfirst⟩ : ∃ x, (h.hear signal).operate "" Rack.preUnload = x := ⟨_, rfl⟩
  rw [hfirst] at hdetaching ⊢
  cases detached with
  | none => exact hdetaching
  | some detached => exact folder_unload.trans hdetaching

/-- What a signal does to a host with everything attached: all are detached, and unloaded at the
first try, the last one first. -/
structure Ceases (h : Host) (signal : Signal) (last : Host) : Prop where
  detached : (h.hear signal).rack.preUnload.1 = .ok h.rack.names.length
  unloaded : (h.hear signal).rack.preUnload.2.unloadAll.1 = .ok h.rack.names.reverse
  stopped : h.stop signal = (true, last)
  members : last.rack.members = []

theorem ceases_of_carries (hc : Carries m .postLoaded h.rack) (signal : Signal) :
    ∃ last, h.Ceases signal last := by
  have hheard : Carries m .postLoaded (h.hear signal).rack := hc.reported reports_hear.rack
  obtain ⟨hdetached, hunloaded, hmembers⟩ := hheard.takeDown
  let ready : Host := { h.hear signal with rack := (h.hear signal).rack.preUnload.2 }
  let empty : Host := { ready with rack := ready.rack.unloadAll.2 }
  have hdetaching : (h.hear signal).operate "" Rack.preUnload =
      (some (h.hear signal).rack.names.length, ready) := operate_ok hdetached
  refine ⟨empty.tell ("👋 Unloaded " ++ toString h.rack.names.reverse.length ++ " modules"),
    hdetached, hunloaded, ?_, hmembers⟩
  rw [stop, shutdown, hdetaching]
  exact unload_ok hunloaded

end Host

/-! ## What a run needs -/

theorem read_inFolder {f : Folder} {path text : String} (h : Settings.readText f path = .ok text) :
    (Source.inFolder f path).read = Manifest.parse text := by
  have htext : (f.read path).bind textOf = .ok text := h
  rw [Source.inFolder, Source.read, htext]

namespace Invocation

/-- Whether no library is there but the scoring library. -/
def OnlyScoring (i : Invocation) : Prop := ∀ x ∈ i.libraries, ∀ b, x.2 = .ok b → b = scoringUnit

/-- Whether a run has a configuration, and what its settings and the folder are then. -/
structure Configured (i : Invocation) (c : CommandLine) (s : Settings) (folder : Folder) : Prop where
  found : ∃ es, Settings.Found i.folder c.configPath es folder ∧ Settings.Settled es c s
  admissible : s.Admissible

/-- Whether a run has a configuration, and modules that it can load. -/
structure Ready (i : Invocation) (c : CommandLine) (s : Settings) (folder : Folder) (m : Manifest) :
    Prop extends Configured i c s folder where
  read : (Source.inFolder folder s.modulesFile).read = .ok m
  valid : m.Valid (i.depot folder s) []

/-- What a run comes to that waits for the signal: the modules of its manifest have been loaded and
attached, and on the signal nobody stands in the way. -/
structure Serves (i : Invocation) (c : CommandLine) (m : Manifest) (signal : Signal)
    (report : RunReport) : Prop where
  signalled : report.signalled = true
  exit : report.exit = 0
  ended : ∃ started running last, Host.start i c = .ok started ∧ started.attach = (true, running) ∧
    running.rack.names.Perm m.names ∧ running.Ceases signal last

end Invocation

/-- What becomes of the folder.  Nothing does, unless the configuration is missing; then it is created
with the defaults, if it can be. -/
structure KeepsConfiguration (f : Folder) (path : String) (f' : Folder) : Prop where
  kept : f.holds path ≠ .ok false → f' = f
  created : f.holds path = .ok false →
    f.Creates path Settings.defaultText.toUTF8 f' ∧ Settings.load f' path = .ok ⟨{}, false, f'⟩ ∨
      (∃ fault, f.write path Settings.defaultText.toUTF8 = .error fault) ∧ f' = f

namespace KeepsConfiguration

variable {f f' : Folder} {path : String}

theorem of_load {l : Settings.Loaded} (h : Settings.load f path = .ok l) :
    KeepsConfiguration f path l.folder := by
  obtain ⟨es, hfound, -⟩ := Settings.found_of_load h {}
  generalize l.folder = f' at hfound ⊢
  cases hfound with
  | present hthere =>
      refine ⟨fun _ => rfl, fun hmissing => ?_⟩
      rw [hthere] at hmissing
      cases hmissing
  | created hmissing hwrite =>
      have hcreates := Folder.creates_of_write hmissing hwrite
      exact ⟨fun hnot => absurd hmissing hnot,
        fun _ => .inl ⟨hcreates, Settings.load_created hcreates⟩⟩

theorem of_error {fault : SettingsFault} (h : Settings.load f path = .error fault) :
    KeepsConfiguration f path f := by
  refine ⟨fun _ => rfl, fun hmissing => .inr ⟨?_, rfl⟩⟩
  rw [Settings.load, hmissing] at h
  simp only at h
  cases hwrite : f.write path Settings.defaultText.toUTF8 with
  | error fault => exact ⟨fault, rfl⟩
  | ok after =>
      rw [hwrite] at h
      cases h

end KeepsConfiguration

/-! ## Starting -/

namespace Host

theorem ofSettings_spec {path : String} {l : Settings.Loaded} :
    (ofSettings i path l s).settings = s ∧ (ofSettings i path l s).folder = l.folder ∧
      Bare (i.depot l.folder s) (ofSettings i path l s).rack := by
  let host : Host := ⟨s, l.folder, { env := { depot := i.depot l.folder s, entropy := i.entropy } }⟩
  have hhost : Bare (i.depot l.folder s) host.rack := ⟨_, _, rfl⟩
  have hreports : host.Reports (ofSettings i path l s) := by
    rw [ofSettings]
    split
    · exact (reports_report.trans reports_report).trans reports_report
    · exact reports_report.trans reports_report
  exact ⟨hreports.settings, hreports.folder, hhost.reported hreports.rack⟩

/-- A run that is configured starts. -/
theorem start_of_configured (hc : i.Configured c s folder) :
    ∃ host, Host.start i c = .ok host ∧ host.settings = s ∧ host.folder = folder ∧
      Bare (i.depot folder s) host.rack := by
  obtain ⟨⟨es, hfound, hsettled⟩, hadmissible⟩ := hc
  obtain ⟨l, hload, rfl, rfl⟩ := hfound.load hsettled
  refine ⟨ofSettings i c.configPath l (l.settings.override c), ?_, ofSettings_spec⟩
  rw [Host.start, hload]
  simp only [Settings.flaw?_eq_none.mpr hadmissible]

/-- A run that has started is configured. -/
theorem configured_of_start {host : Host} (h : Host.start i c = .ok host) :
    i.Configured c host.settings host.folder := by
  rw [Host.start] at h
  cases hload : Settings.load i.folder c.configPath with
  | error fault =>
      rw [hload] at h
      cases h
  | ok l =>
      rw [hload] at h
      simp only at h
      cases hflaw : (l.settings.override c).flaw? with
      | some flaw =>
          rw [hflaw] at h
          cases h
      | none =>
          rw [hflaw] at h
          cases h
          obtain ⟨hsettings, hfolder, -⟩ := @ofSettings_spec i (l.settings.override c) c.configPath l
          rw [hsettings, hfolder]
          exact ⟨Settings.found_of_load hload c, Settings.flaw?_eq_none.mp hflaw⟩

/-- Whether it starts or not, a run keeps its configuration. -/
theorem keeps_of_start :
    (∀ host, Host.start i c = .ok host → KeepsConfiguration i.folder c.configPath host.folder) ∧
      ∀ fault folder, Host.start i c = .error (fault, folder) →
        KeepsConfiguration i.folder c.configPath folder := by
  rw [Host.start]
  cases hload : Settings.load i.folder c.configPath with
  | error fault =>
      refine ⟨fun host h => (nomatch h), fun fault' folder h => ?_⟩
      cases h
      exact .of_error hload
  | ok l =>
      have hkeeps := KeepsConfiguration.of_load hload
      simp only
      cases (l.settings.override c).flaw? with
      | some flaw =>
          refine ⟨fun host h => (nomatch h), fun fault folder h => ?_⟩
          cases h
          exact hkeeps
      | none =>
          refine ⟨fun host h => ?_, fun fault folder h => nomatch h⟩
          cases h
          rw [ofSettings_spec.2.1]
          exact hkeeps

end Host

/-! ## Whole runs -/

theorem stocks_depot (honly : i.OnlyScoring) : Stocks (i.depot folder s) := by
  refine ⟨rfl, rfl, fun path b hload => ?_⟩
  obtain ⟨x, hx, hb⟩ := mem_libraries_of_load hload
  exact honly x hx b hb

theorem runWith_ready (honly : i.OnlyScoring) (hr : i.Ready c s folder m) (signal : Signal) :
    i.Serves c m signal (runWith i c signal) := by
  obtain ⟨started, hstart, hsettings, hfolder, hbare⟩ := Host.start_of_configured hr.toConfigured
  have hread : started.source.read = .ok m := by
    rw [Host.source, hsettings, hfolder]
    exact hr.read
  obtain ⟨running, hattach, hcarries⟩ :=
    Host.attach_valid hbare (stocks_depot honly) hread hr.valid
  obtain ⟨last, hceases⟩ := Host.ceases_of_carries hcarries signal
  have hrun : runWith i c signal = last.ended i true true := by
    rw [runWith, hstart]
    simp only [hattach, hceases.stopped]
  rw [hrun]
  exact ⟨rfl, rfl, started, running, last, hstart, hattach, hcarries.names, hceases⟩

theorem runWith_unready (h : ∀ s folder m, ¬ i.Ready c s folder m) (signal : Signal) :
    (runWith i c signal).signalled = false ∧ (runWith i c signal).exit = 1 := by
  rw [runWith]
  cases hstart : Host.start i c with
  | error x => exact ⟨rfl, rfl⟩
  | ok started =>
      have hconfigured := Host.configured_of_start hstart
      obtain ⟨host, hsame, -, -, hbare⟩ := Host.start_of_configured hconfigured
      obtain rfl : started = host := Except.ok.inj (hstart.symm.trans hsame)
      have hinvalid : ∀ m, started.source.read = .ok m →
          ¬ m.Valid (i.depot started.folder started.settings) [] := by
        intro m hread hvalid
        exact h _ _ m ⟨hconfigured, hread, hvalid⟩
      have hattach := Host.attach_invalid hbare hinvalid
      simp only
      obtain ⟨⟨well, failed⟩, hfailed⟩ : ∃ x, started.attach = x := ⟨_, rfl⟩
      rw [hfailed] at hattach ⊢
      obtain rfl : well = false := hattach
      exact ⟨rfl, rfl⟩

theorem runWith_keeps :
    KeepsConfiguration i.folder c.configPath (runWith i c signal).folder := by
  obtain ⟨hstarted, hfailed⟩ := @Host.keeps_of_start i c
  rw [runWith]
  cases hstart : Host.start i c with
  | error x => exact hfailed x.1 x.2 hstart
  | ok started =>
      have hkeeps := hstarted started hstart
      have hattaching : started.attach.2.folder = started.folder := Host.folder_attach
      simp only
      obtain ⟨⟨well, running⟩, hattach⟩ : ∃ x, started.attach = x := ⟨_, rfl⟩
      rw [hattach] at hattaching ⊢
      rw [← hattaching] at hkeeps
      cases well with
      | false => exact hkeeps
      | true =>
          show KeepsConfiguration i.folder c.configPath (running.stop signal).2.folder
          rw [Host.folder_stop]
          exact hkeeps

/-- A run with nothing to load but what comes with the host waits for the signal just if it is ready.
Then it ends well on the signal, with everybody unloaded at the first try, and otherwise it fails.
Either way it keeps its configuration. -/
theorem run_ends_cleanly (hread : CommandLine.read i.arguments = .run c) (honly : i.OnlyScoring)
    (signal : Signal) :
    ((run i signal).signalled = true ↔ ∃ s folder m, i.Ready c s folder m) ∧
      (∀ s folder m, i.Ready c s folder m → i.Serves c m signal (run i signal)) ∧
      ((run i signal).signalled = false → (run i signal).exit = 1) ∧
      KeepsConfiguration i.folder c.configPath (run i signal).folder := by
  have hrun : run i signal = runWith i c signal := by rw [run, hread]
  rw [hrun]
  by_cases hready : ∃ s folder m, i.Ready c s folder m
  · obtain ⟨s, folder, m, hr⟩ := id hready
    have hwaits := (runWith_ready honly hr signal).signalled
    refine ⟨⟨fun _ => hready, fun _ => hwaits⟩, ?_, ?_, runWith_keeps⟩
    · intro s folder m hr
      exact runWith_ready honly hr signal
    · intro hnot
      rw [hwaits] at hnot
      cases hnot
  · have hnone : ∀ s folder m, ¬ i.Ready c s folder m :=
      fun s folder m hr => hready ⟨s, folder, m, hr⟩
    obtain ⟨hnot, hexit⟩ := runWith_unready hnone signal
    refine ⟨⟨fun hwaits => ?_, fun hr => absurd hr hready⟩, ?_, fun _ => hexit, runWith_keeps⟩
    · rw [hnot] at hwaits
      cases hwaits
    · intro s folder m hr
      exact absurd hr (hnone s folder m)

/-- Asks for a module of the scoring library, and for the one that it depends on. -/
def lotteryManifest : Manifest :=
  ⟨[{ name := "kill-prizes", unit := some "unit_scoring" }, { name := "prng" }]⟩

def lotteryText : String :=
  "[[modules]]\nname = \"kill-prizes\"\nunit = \"unit_scoring\"\n\n[[modules]]\nname = \"prng\"\n"

/-- A host that is told where its units lie, and has no configuration yet. -/
def lottery : Invocation where
  arguments := ["--units", "units"]
  folder := .ofFiles [("modules.toml", lotteryText.toUTF8), ("units/libunit_scoring.so", .empty)]
  libraries := [(["units", "libunit_scoring.so"], .ok scoringUnit)]

def lotteryArguments : CommandLine := { unitDirectory := some "units" }

theorem lottery_onlyScoring : lottery.OnlyScoring := by
  intro x hx b hb
  obtain rfl : x = (["units", "libunit_scoring.so"], .ok scoringUnit) := List.mem_singleton.mp hx
  exact (Except.ok.inj hb).symm

/-- That run has all it needs. -/
theorem lottery_ready : ∃ s folder, lottery.Ready lotteryArguments s folder lotteryManifest := by
  obtain ⟨folder, hwrite, hread, plan, hplan⟩ : ∃ folder,
      lottery.folder.write "zone.toml" Settings.defaultText.toUTF8 = .ok folder ∧
        folder.read "modules.toml" = .ok lotteryText.toUTF8 ∧
        ∃ plan, (Plan.make (lottery.depot folder (Settings.override {} lotteryArguments)) []
          lotteryManifest).result = .ok plan :=
    ⟨_, rfl, rfl, _, rfl⟩
  have hmissing : lottery.folder.holds "zone.toml" = .ok false := rfl
  have hparse : Manifest.parse lotteryText = .ok lotteryManifest := by decide +kernel
  refine ⟨Settings.override {} lotteryArguments, folder,
    ⟨⟨[], .created hmissing hwrite, Settings.settled_default⟩, ?_⟩, ?_, ?_⟩
  · exact ⟨by decide, by decide, by decide, .info, rfl⟩
  · have htext : Settings.readText folder "modules.toml" = .ok lotteryText :=
      Settings.readText_of_read hread
    exact (read_inFolder htext).trans hparse
  · rcases @Plan.make_cases (lottery.depot folder (Settings.override {} lotteryArguments)) []
      lotteryManifest with ⟨_, -, hvalid⟩ | ⟨e, herror, -⟩
    · exact hvalid
    · rw [hplan] at herror
      cases herror

/-- It waits for the signal and ends well, and its configuration has been created. -/
theorem run_ends_cleanly_lottery :
    CommandLine.read lottery.arguments = .run lotteryArguments ∧ lottery.OnlyScoring ∧
      lottery.Serves lotteryArguments lotteryManifest .terminate (run lottery .terminate) ∧
      lottery.folder.Creates "zone.toml" Settings.defaultText.toUTF8 (run lottery .terminate).folder := by
  have hread : CommandLine.read lottery.arguments = .run lotteryArguments := by decide +kernel
  obtain ⟨-, hserves, -, hkeeps⟩ := run_ends_cleanly hread lottery_onlyScoring .terminate
  obtain ⟨s, folder, hready⟩ := lottery_ready
  refine ⟨hread, lottery_onlyScoring, hserves s folder lotteryManifest hready, ?_⟩
  rcases hkeeps.created rfl with ⟨hcreates, -⟩ | ⟨⟨fault, hfault⟩, -⟩
  · exact hcreates
  · cases hfault

end Backplane.Zone
