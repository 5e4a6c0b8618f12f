import Backplane.Bundle.Blueprint
/-!
# `Backplane.Zone.Modules`: the modules that come with the host

The built-in unit provides random numbers and the masking of offensive words; the scoring unit, a
library, provides three scorers of kills.

These model `builtin_unit`, with `PrngModule` and `ObscenityModule`, and the unit `scoring`, with
`bounty_points`, `flag_points` and `kill_prizes`.
-/
namespace Backplane.Zone

/-- The version of the host and of everything that comes with it. -/
def version : String := "0.1.0"

/-- A blueprint of a module that only acts when it is loaded. -/
def loader (name : String) (dependencies : List String) (load : Behaviour) : Blueprint where
  name := name
  dependencies := dependencies
  construction := .built ⟨name, version, { load }⟩

/-- Publishes a generator that starts at random. -/
def generatorModule : Blueprint :=
  loader "prng" [] (.perform .entropy fun r =>
    match r with
    | .generator g => .perform (.publishInterface (.generator g) none) Behaviour.settle
    | _ => Behaviour.settle r)

/-- The words masked unless others are listed. -/
def defaultWords : List String := ["darn", "heck", "frak"]

def wordFilterModule : Blueprint :=
  let note : LogEvent := ⟨.debug, .hostModules,
    "Obscenity filter loaded with " ++ toString defaultWords.length ++ " words"⟩
  loader "obscenity" [] (.perform (.report note) fun _ =>
    .perform (.publishInterface (.wordFilter (.ofWords defaultWords)) none) Behaviour.settle)

/-- Publishes a scorer of kills. -/
def scorerModule (name : String) (dependencies : List String) (s : Scorer) (priority : Int) : Blueprint :=
  loader name dependencies (.perform (.publishAdvisor (.scorer s) priority none) Behaviour.settle)

def bountyModule : Blueprint := scorerModule "bounty-points" [] .bounty 0

/-- Five points for each flag. -/
def flagModule : Blueprint := scorerModule "flag-points" [] (.perFlag 5) 10

/-- One kill in four earns one of 28 prizes. -/
def prizeScorer : Scorer := .lottery 4 28

def prizeModule : Blueprint := scorerModule "kill-prizes" ["prng"] prizeScorer 20

/-- The unit built into the host. -/
def builtinUnit : Bundle := .ofList "builtin" [generatorModule, wordFilterModule]

/-- The unit of the scoring library. -/
def scoringUnit : Bundle := .ofList "scoring" [bountyModule, flagModule, prizeModule]

/-- Every module that comes with the host. -/
def modules : List Blueprint := builtinUnit.blueprints ++ scoringUnit.blueprints

end Backplane.Zone
