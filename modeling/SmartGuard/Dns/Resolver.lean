import SmartGuard.Net.Text
import SmartGuard.Route.Kernel

/-!
# The system's resolver while the tunnel is up

The program sets the DNS servers of the tunnel by a run of the system's tool, and takes
them back by another one. The tools are not part of the source, so how they work is left
open. What the program relies on is that a run touches no entry but the one that it names,
and that an entry is gone once it was taken back.

## Implementation notes

A run of a tool may end in several ways, of which one is a success. A run that fails may
have changed its entry all the same.
-/

namespace SmartGuard

/-- The systems that the source knows, and any other. -/
inductive Os
  | macos
  | linux
  | other
  deriving DecidableEq

/-- How the run of a tool ends. -/
inductive Ended
  | spawnFailed
  | writeFailed
  | waitFailed
  | exited (success : Bool)

def Ended.ok : Ended → Bool
  | .exited success => success
  | _ => false

/-- The tools of the resolver: a program is run with arguments and an input. -/
structure Resolver (δ : Type*) where
  run : Text → List Text → Text → δ → Ended × δ

structure AppliedDns where
  tunName : Text
  deriving DecidableEq

section Apply

/-- The script that sets the servers. -/
def applyScript (tunName : Text) (dnsServers : List IpAddr) : Text :=
  "open\n".toList ++ "d.init\n".toList ++ "d.add ServerAddresses *".toList ++
    dnsServers.flatMap (fun ip => ' ' :: ip.show) ++ ['\n'] ++
    "d.add SupplementalMatchDomains * \"\"\n".toList ++ "d.add SearchDomains *\n".toList ++
    ("set State:/Network/Service/".toList ++ tunName ++ "/DNS\n".toList) ++ "quit\n".toList

/-- The script that takes them back. -/
def cleanupScript (tunName : Text) : Text :=
  "open\nremove State:/Network/Service/".toList ++ tunName ++ "/DNS\nquit\n".toList

def ifaceId (tunName : Text) : Text := "tun.".toList ++ tunName

variable {δ : Type*} (R : Resolver δ)

def runScutil (script : Text) (s : δ) : Bool × δ :=
  let out := R.run "scutil".toList [] script s
  (out.1.ok, out.2)

def applyMacos (tunName : Text) (dnsServers : List IpAddr) (s : δ) : Bool × δ :=
  runScutil R (applyScript tunName dnsServers) s

def cleanupMacos (tunName : Text) (s : δ) : δ := (runScutil R (cleanupScript tunName) s).2

def applyLinux (tunName : Text) (dnsServers : List IpAddr) (s : δ) : Bool × δ :=
  let buf := dnsServers.flatMap fun ip => "nameserver ".toList ++ ip.show ++ ['\n']
  let out := R.run "resolvconf".toList
    ["-a".toList, ifaceId tunName, "-m".toList, "0".toList, "-x".toList] buf s
  (out.1.ok, out.2)

def cleanupLinux (tunName : Text) (s : δ) : δ :=
  (R.run "resolvconf".toList ["-d".toList, ifaceId tunName, "-f".toList] [] s).2

def applyDns (os : Os) (tunName : Text) (dnsServers : List IpAddr) (s : δ) :
    Option AppliedDns × δ :=
  if dnsServers.isEmpty then (none, s)
  else
    let out := match os with
      | .macos => applyMacos R tunName dnsServers s
      | .linux => applyLinux R tunName dnsServers s
      | .other => (false, s)
    (if out.1 then some ⟨tunName⟩ else none, out.2)

def cleanupDns (os : Os) (applied : AppliedDns) (s : δ) : δ :=
  match os with
  | .macos => cleanupMacos R applied.tunName s
  | .linux => cleanupLinux R applied.tunName s
  | .other => s

end Apply

section Documented

variable {δ ε : Type*}

/-- The key of the tunnel's entry. -/
def dnsKey : Os → Text → Text
  | .linux, tunName => ifaceId tunName
  | _, tunName => "State:/Network/Service/".toList ++ tunName ++ "/DNS".toList

/-- The run that takes the servers back. -/
def Resolver.remove (R : Resolver δ) (os : Os) (tunName : Text) (s : δ) : Ended × δ :=
  match os with
  | .linux => R.run "resolvconf".toList ["-d".toList, ifaceId tunName, "-f".toList] [] s
  | _ => R.run "scutil".toList [] (cleanupScript tunName) s

/-- No entry but one differs. -/
def SameBut (key : Text) (V W : Text → Option ε) : Prop := ∀ k, k ≠ key → W k = V k

/-- What the tools are documented to do with the runs that the program starts: they touch the
entry that they name and no other one, and an entry that was taken away is gone. A run that was
to set the entry may leave it in any way, whether it succeeds or not. -/
structure Resolver.Documented (R : Resolver δ) (entries : δ → Text → Option ε) (tunName : Text) :
    Prop where
  scutil_set : ∀ servers s, SameBut (dnsKey .macos tunName) (entries s)
    (entries (R.run "scutil".toList [] (applyScript tunName servers) s).2)
  resolvconf_set : ∀ input s, SameBut (dnsKey .linux tunName) (entries s)
    (entries (R.run "resolvconf".toList
      ["-a".toList, ifaceId tunName, "-m".toList, "0".toList, "-x".toList] input s).2)
  remove : ∀ os s, SameBut (dnsKey os tunName) (entries s) (entries (R.remove os tunName s).2)
  removed : ∀ os s, (R.remove os tunName s).1.ok = true →
    entries (R.remove os tunName s).2 (dnsKey os tunName) = none

/-- Take the servers back if they were applied. -/
def restoreDns (R : Resolver δ) (os : Os) (applied : Option AppliedDns) (s : δ) : δ :=
  match applied with
  | some applied => cleanupDns R os applied s
  | none => s

variable {R : Resolver δ} {entries : δ → Text → Option ε} {os : Os} {tunName : Text}
  {dnsServers : List IpAddr} {s : δ}

/-- Applying the servers touches no entry but the tunnel's. -/
theorem applyDns_sameBut (h : R.Documented entries tunName) :
    SameBut (dnsKey os tunName) (entries s)
      (entries (applyDns R os tunName dnsServers s).2) := by
  unfold applyDns
  split
  · exact fun _ _ => rfl
  · cases os with
    | macos => exact h.scutil_set dnsServers s
    | linux => exact h.resolvconf_set _ s
    | other => exact fun _ _ => rfl

/-- Without servers nothing is run. -/
theorem applyDns_nil : applyDns R os tunName [] s = (none, s) := rfl

/-- What is reported to be applied is the tunnel's, on a system that has a tool. -/
theorem applyDns_eq_some {applied : AppliedDns}
    (h : (applyDns R os tunName dnsServers s).1 = some applied) :
    applied = ⟨tunName⟩ ∧ os ≠ .other := by
  unfold applyDns at h
  split at h
  · cases h
  · obtain ⟨hok, happlied⟩ := Option.ite_none_right_eq_some.mp h
    refine ⟨(Option.some.inj happlied).symm, ?_⟩
    rintro rfl
    cases hok

theorem cleanupDns_eq (hos : os ≠ .other) :
    cleanupDns R os ⟨tunName⟩ s = (R.remove os tunName s).2 := by
  cases os with
  | macos => rfl
  | linux => rfl
  | other => exact absurd rfl hos

/-- Servers that were applied are taken back: the tunnel's entry is gone, and the others are
as they were. -/
theorem cleanupDns_entries (h : R.Documented entries tunName) (hos : os ≠ .other)
    (hok : (R.remove os tunName s).1.ok = true) :
    entries (cleanupDns R os ⟨tunName⟩ s) =
      Function.update (entries s) (dnsKey os tunName) none := by
  rw [cleanupDns_eq hos]
  ext1 key
  rw [Function.update_apply]
  split
  · next hkey =>
      rw [hkey]
      exact h.removed os s hok
  · next hkey => exact h.remove os s key hkey

end Documented

end SmartGuard
