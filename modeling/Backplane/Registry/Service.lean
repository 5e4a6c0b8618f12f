import Backplane.Contract.Scoring
import Backplane.Contract.WordFilter
import Backplane.Registry.Capability
/-!
# `Backplane.Registry.Service`: what is published

A service is known by what it does; its contract follows from that.  A generator changes when it is
used, so services are kept in one place and referred to by number.

Services model `Prng`, `ObscenityFilter`, `KillPoints`, `BannerAdvisor` and others of which only a
number is known.
-/
namespace Backplane

inductive Scorer
  | bounty
  | perFlag (points : Int)
  /-- The same award for every kill; its tag shows in the journal that it was asked. -/
  | fixed (award : Award) (tag : String)
  /-- One kill in `chance` earns one of `prizes` prizes, drawn from the published generator. -/
  | lottery (chance prizes : UInt32)
deriving DecidableEq, Repr

inductive Service
  | value (capability : Capability) (alternate : Bool) (n : Int)
  | generator (g : Xorshift)
  | wordFilter (f : WordFilter)
  | scorer (s : Scorer)
  /-- Whether a banner may be shown; the tag shows in the journal that it was asked. -/
  | permit (allow : Bool) (tag : String)
deriving DecidableEq, Repr

namespace Service

def contract : Service → Contract
  | value c alternate _ => ⟨c, if alternate then .alternate else .value⟩
  | generator _ => .generator
  | wordFilter _ => .wordFilter
  | scorer _ => .killPoints
  | permit _ _ => .bannerPermit

def number : Service → Int
  | value _ _ n => n
  | _ => 0

end Service

end Backplane
