import SmartGuard.Net.Text
import SmartGuard.Route.Reversal

/-!
# The command lines of the routes

The source keeps prefixes, addresses and gateways as texts, and each change of a route is a
run of the `route` command with a list of arguments. This layer follows the source to the
letter. A command line says all of the command, so over a tool that does what a kernel does
the texts do what the functions on destinations do, throughout the life of the program.

## Implementation notes

The tool may fail to run at all, and what it prints is split into lines as the source
splits it. How a prefix is printed is left open, since a crate does it; only the prefixes
that the source names are known to be printed as the source writes them. A tool for any
kernel reads the command lines back.
-/

namespace SmartGuard

open LongestMatch StateLoop

/-- An argument of a command. -/
abbrev Arg := Text

section Arguments

variable (display : IpNet → Arg)

def Family.routeFlag : Family → Arg
  | .V4 => "-inet".toList
  | .V6 => "-inet6".toList

def RouteTarget.family : RouteTarget → Family
  | .net n => n.family
  | .host ip => ip.family

/-- How a command line names a destination. -/
def RouteTarget.args : RouteTarget → List Arg
  | .net n => ["-net".toList, display n]
  | .host ip => ["-host".toList, ip.show]

/-- How a command line names a next hop. -/
def NextHop.args : NextHop → List Arg
  | .gateway gw => ["-gateway".toList, gw.text]
  | .interface iface => ["-interface".toList, iface.text]

def RouteCmd.args : RouteCmd → List Arg
  | .add target via =>
      ["-n".toList, "add".toList, target.family.routeFlag] ++ target.args display ++ via.args
  | .delete target iface =>
      ["-n".toList, "delete".toList, target.family.routeFlag] ++ target.args display ++
        match iface with
        | none => []
        | some iface => (NextHop.interface iface).args

def RouteQuery.args : RouteQuery → List Arg
  | .default family => ["-n".toList, "get".toList, family.routeFlag, "default".toList]
  | .address ip => ["-n".toList, "get".toList, ip.family.routeFlag, ip.show]

end Arguments

/-- The `route` tool: whether it can be run, and then whether it succeeds and what it
prints. -/
structure RouteTool (σ : Type*) where
  run : List Arg → σ → Option (Bool × List Char) × σ

namespace RouteText

/-- The record of a route, as the source keeps it. -/
inductive AddedRoute
  | net (pfx tunName : Arg) (family : Family)
  | host (ip : Arg) (family : Family) (gateway : Option Arg)
  | passthrough (pfx : Arg) (family : Family)
  deriving DecidableEq

section Constants

def v4BlackholeExemptions : List Arg :=
  ["10.0.0.0/8".toList, "100.64.0.0/10".toList, "172.16.0.0/12".toList, "192.168.0.0/16".toList]

def v6BlackholeExemptions : List Arg := []

def blackholeExemptions : Family → List Arg
  | .V4 => v4BlackholeExemptions
  | .V6 => v6BlackholeExemptions

def probe : Family → Arg
  | .V4 => "1.1.1.1".toList
  | .V6 => "2606:4700:4700::1111".toList

def halves : Family → List Arg
  | .V4 => ["0.0.0.0/1".toList, "128.0.0.0/1".toList]
  | .V6 => ["::/1".toList, "8000::/1".toList]

end Constants

/-- The prefixes that the source names are printed as it writes them. -/
structure PrintsConstants (display : IpNet → Arg) : Prop where
  halves : ∀ family, (SmartGuard.halves family).map display = halves family
  exemptions : ∀ family,
    (SmartGuard.blackholeExemptions family).map display = blackholeExemptions family

variable {σ : Type*} (tool : RouteTool σ) (display : IpNet → Arg)

section Tool

def routeCmd (args : List Arg) (s : σ) : Bool × σ :=
  match tool.run args s with
  | (some (ok, _), s) => (ok, s)
  | (none, s) => (false, s)

/-- What a query prints, if it can be run and succeeds. -/
def getOutput (args : List Arg) (s : σ) : Option (List (List Char)) × σ :=
  match tool.run args s with
  | (some (true, stdout), s) => (some (lines stdout), s)
  | (_, s) => (none, s)

def getRouteInfo (ip : Arg) (family : Family) (s : σ) : Option RouteInfo × σ :=
  let output := getOutput tool ["-n".toList, "get".toList, family.routeFlag, ip] s
  (output.1.map parseRouteInfo, output.2)

end Tool

section Install

def addNet (tunName pfx : Arg) (family : Family) (s : σ) : Option AddedRoute × σ :=
  let added := routeCmd tool
    ["-n".toList, "add".toList, family.routeFlag, "-net".toList, pfx, "-interface".toList,
      tunName] s
  (if added.1 then some (.net pfx tunName family) else none, added.2)

/-- Add a route through the gateway of a query, else through its interface. -/
def addVia (family : Family) (kind dest : Arg) (info : RouteInfo) (s : σ) : Bool × σ :=
  match info.gateway with
  | some gw =>
      routeCmd tool
        ["-n".toList, "add".toList, family.routeFlag, kind, dest, "-gateway".toList, gw.text] s
  | none =>
      match info.interface with
      | some iface =>
          routeCmd tool
            ["-n".toList, "add".toList, family.routeFlag, kind, dest, "-interface".toList,
              iface.text] s
      | none => (false, s)

def passthroughNet (family : Family) (info : RouteInfo) (pfx : Arg) (s : σ) :
    Option AddedRoute × σ :=
  let added := addVia tool family "-net".toList pfx info s
  (if added.1 then some (.passthrough pfx family) else none, added.2)

def installPassthroughs (family : Family) (s : σ) : List AddedRoute × σ :=
  let exemptions := blackholeExemptions family
  if exemptions.isEmpty then ([], s)
  else
    let answer := getRouteInfo tool (probe family) family s
    match answer.1 with
    | none => ([], answer.2)
    | some info => collect (passthroughNet tool family info) exemptions answer.2

/-- The body of the loop over the peer endpoints. -/
def bypassEndpoint (family : Family) (ep : SocketAddr) (s : σ) : Option AddedRoute × σ :=
  if ep.ip.family ≠ family then (none, s)
  else
    let ip := ep.ip.show
    let answer := getRouteInfo tool ip family s
    match answer.1 with
    | none => (none, answer.2)
    | some info =>
        let added := addVia tool family "-host".toList ip info answer.2
        (if added.1 then some (.host ip family (info.gateway.map Token.text)) else none, added.2)

def installEndpointBypass (peerEndpoints : List SocketAddr) (family : Family) (s : σ) :
    List AddedRoute × σ :=
  collect (bypassEndpoint tool family) peerEndpoints s

/-- The prefixes routed into the tunnel for one AllowedIPs prefix, with their family. -/
def tunnelNets (n : IpNet) : List (Arg × Family) :=
  if n.prefixLen = 0 then (halves n.family).map fun half => (half, n.family)
  else [(display n, n.family)]

def setupRoutes (tunName : Arg) (allowedIps : List IpNet) (peerEndpoints : List SocketAddr)
    (s : σ) : List AddedRoute × σ :=
  let v4 := if hasCatchall allowedIps .V4 then installEndpointBypass tool peerEndpoints .V4 s
    else ([], s)
  let v6 := if hasCatchall allowedIps .V6 then installEndpointBypass tool peerEndpoints .V6 v4.2
    else ([], v4.2)
  let nets := collect (fun n => addNet tool tunName n.1 n.2)
    (allowedIps.flatMap (tunnelNets display)) v6.2
  (v4.1 ++ v6.1 ++ nets.1, nets.2)

def setupUnconfiguredFamily (family : Family) (tunName : Arg)
    (peerEndpoints : List SocketAddr) (s : σ) : List AddedRoute × σ :=
  let bypass := installEndpointBypass tool peerEndpoints family s
  let pass := installPassthroughs tool family bypass.2
  let nets := collect (fun half => addNet tool tunName half family) (halves family) pass.2
  (bypass.1 ++ pass.1 ++ nets.1, nets.2)

/-- The route set-up of `run_tunnel`. -/
def startUp (tunName : Arg) (allowedIps : List IpNet) (peerEndpoints : List SocketAddr)
    (tunAddrs : List IpNet) (s : σ) : List AddedRoute × σ :=
  let setup := setupRoutes tool display tunName allowedIps peerEndpoints s
  let v4 := if tunAddrs.any (fun n => n.family = .V4) then ([], setup.2)
    else setupUnconfiguredFamily tool .V4 tunName peerEndpoints setup.2
  let v6 := if tunAddrs.any (fun n => n.family = .V6) then ([], v4.2)
    else setupUnconfiguredFamily tool .V6 tunName peerEndpoints v4.2
  (setup.1 ++ v4.1 ++ v6.1, v6.2)

end Install

section Change

def cleanupRoute (r : AddedRoute) (s : σ) : σ :=
  match r with
  | .net pfx tunName family =>
      (routeCmd tool
        ["-n".toList, "delete".toList, family.routeFlag, "-net".toList, pfx, "-interface".toList,
          tunName] s).2
  | .host ip family _ =>
      (routeCmd tool ["-n".toList, "delete".toList, family.routeFlag, "-host".toList, ip] s).2
  | .passthrough pfx family =>
      (routeCmd tool ["-n".toList, "delete".toList, family.routeFlag, "-net".toList, pfx] s).2

def cleanupRoutes (routes : List AddedRoute) (s : σ) : σ :=
  routes.foldl (fun s r => cleanupRoute tool r s) s

def currentDefaultGateway (family : Family) (s : σ) : Option Arg × σ :=
  let answer := getRouteInfo tool "default".toList family s
  (answer.1.bind fun info => info.gateway.map Token.text, answer.2)

/-- The body of the loop over the added routes, under the current gateways. -/
def recheckRoute (current : Family → Option Arg) (r : AddedRoute) (s : σ) : AddedRoute × σ :=
  match r with
  | .host ip family stored =>
      if stored = current family then (r, s)
      else
        let deleted := routeCmd tool
          ["-n".toList, "delete".toList, family.routeFlag, "-host".toList, ip] s
        match current family with
        | some gw =>
            let installed := routeCmd tool
              ["-n".toList, "add".toList, family.routeFlag, "-host".toList, ip,
                "-gateway".toList, gw] deleted.2
            (if installed.1 then .host ip family (some gw) else r, installed.2)
        | none => (.host ip family none, deleted.2)
  | _ => (r, s)

/-- The gateway of each family, as the two queries of a recheck found it. -/
def gateways (v4 v6 : Option Arg) : Family → Option Arg
  | .V4 => v4
  | .V6 => v6

def recheckRoutes (addedRoutes : List AddedRoute) (s : σ) : List AddedRoute × σ :=
  let v4 := currentDefaultGateway tool .V4 s
  let v6 := currentDefaultGateway tool .V6 v4.2
  mapState (recheckRoute tool (gateways v4.1 v6.1)) addedRoutes v6.2

end Change

section Simulation

variable {tool} {display} {K : Kernel σ}

/-- Over command lines, the tool does what the kernel does. -/
structure Implements (tool : RouteTool σ) (display : IpNet → Arg) (K : Kernel σ) : Prop where
  cmd : ∀ c s, routeCmd tool (RouteCmd.args display c) s = K.cmd c s
  get : ∀ q s, getOutput tool (RouteQuery.args q) s = K.get q s

/-- The record with its texts. -/
def AddedRoute.of (display : IpNet → Arg) : SmartGuard.AddedRoute → AddedRoute
  | .net pfx tunName => .net (display pfx) tunName.text pfx.family
  | .host ip gateway => .host ip.show ip.family (gateway.map Token.text)
  | .passthrough pfx => .passthrough (display pfx) pfx.family

theorem probe_show (family : Family) :
    (SmartGuard.probe family).show = probe family ∧
      (SmartGuard.probe family).family = family := by
  cases family <;> decide +kernel

theorem family_of_mem_halves {family : Family} {n : IpNet} (h : n ∈ SmartGuard.halves family) :
    n.family = family := by
  cases family <;>
  · simp only [SmartGuard.halves, List.mem_cons, List.not_mem_nil, or_false] at h
    rcases h with rfl | rfl <;> rfl

theorem family_of_mem_exemptions {family : Family} {n : IpNet}
    (h : n ∈ SmartGuard.blackholeExemptions family) : n.family = family := by
  cases family with
  | V4 =>
      simp only [SmartGuard.blackholeExemptions, SmartGuard.v4BlackholeExemptions, List.mem_cons,
        List.not_mem_nil, or_false] at h
      rcases h with rfl | rfl | rfl | rfl <;> rfl
  | V6 => cases h

theorem getRouteInfo_address (h : Implements tool display K) (ip : IpAddr) (s : σ) :
    getRouteInfo tool ip.show ip.family s = SmartGuard.getRouteInfo K (.address ip) s := by
  have hget := h.get (.address ip) s
  simp only [RouteQuery.args] at hget
  rw [getRouteInfo, SmartGuard.getRouteInfo, hget]

theorem addNet_sim (h : Implements tool display K) (tun : Token) (pfx : IpNet) (s : σ) :
    addNet tool tun.text (display pfx) pfx.family s =
      Prod.map (Option.map (AddedRoute.of display)) id (SmartGuard.addNet K tun pfx s) := by
  have hcmd := h.cmd (.add (.net pfx) (.interface tun)) s
  simp only [RouteCmd.args, RouteTarget.family, RouteTarget.args, NextHop.args, List.cons_append,
    List.nil_append] at hcmd
  rw [addNet, SmartGuard.addNet, hcmd]
  cases (K.cmd (.add (.net pfx) (.interface tun)) s).1 with
  | false => rfl
  | true => rfl

/-- An add through the next hop of a query is the command of the kernel. -/
theorem addVia_sim (h : Implements tool display K) {target : RouteTarget} {kind dest : Arg}
    (hargs : target.args display = [kind, dest]) (info : RouteInfo) (s : σ) :
    addVia tool target.family kind dest info s = SmartGuard.addVia K target info s := by
  have hcmd : ∀ via : NextHop, routeCmd tool
      (["-n".toList, "add".toList, target.family.routeFlag, kind, dest] ++ via.args) s =
        K.cmd (.add target via) s := by
    intro via
    rw [← h.cmd, RouteCmd.args, hargs]
    rfl
  unfold addVia SmartGuard.addVia
  cases info.gateway with
  | some gw => exact hcmd (.gateway gw)
  | none =>
      cases info.interface with
      | some iface => exact hcmd (.interface iface)
      | none => rfl

theorem passthroughNet_sim (h : Implements tool display K) (info : RouteInfo) (pfx : IpNet)
    (s : σ) :
    passthroughNet tool pfx.family info (display pfx) s =
      Prod.map (Option.map (AddedRoute.of display)) id
        (SmartGuard.passthroughNet K info pfx s) := by
  have hargs : (RouteTarget.net pfx).args display = ["-net".toList, (display pfx)] := rfl
  have hadd : addVia tool pfx.family "-net".toList (display pfx) info s =
      SmartGuard.addVia K (.net pfx) info s := addVia_sim h hargs info s
  rw [passthroughNet, SmartGuard.passthroughNet, hadd]
  cases (SmartGuard.addVia K (.net pfx) info s).1 with
  | false => rfl
  | true => rfl

theorem bypassEndpoint_sim (h : Implements tool display K) (family : Family) (ep : SocketAddr)
    (s : σ) :
    bypassEndpoint tool family ep s =
      Prod.map (Option.map (AddedRoute.of display)) id
        (SmartGuard.bypassEndpoint K family ep s) := by
  unfold bypassEndpoint SmartGuard.bypassEndpoint
  split
  · rfl
  · next hfamily =>
      obtain rfl : ep.ip.family = family := not_not.mp hfamily
      have hargs : (RouteTarget.host ep.ip).args display = ["-host".toList, ep.ip.show] := rfl
      have hadd : ∀ info t, addVia tool ep.ip.family "-host".toList ep.ip.show info t =
          SmartGuard.addVia K (.host ep.ip) info t := addVia_sim h hargs
      simp only [getRouteInfo_address h, hadd]
      cases (SmartGuard.getRouteInfo K (.address ep.ip) s).1 with
      | none => rfl
      | some info =>
          dsimp only
          cases (SmartGuard.addVia K (.host ep.ip) info
              (SmartGuard.getRouteInfo K (.address ep.ip) s).2).1 with
          | false => rfl
          | true => rfl

theorem installEndpointBypass_sim (h : Implements tool display K) (eps : List SocketAddr)
    (family : Family) (s : σ) :
    installEndpointBypass tool eps family s =
      Prod.map (List.map (AddedRoute.of display)) id
        (SmartGuard.installEndpointBypass K eps family s) := by
  have hview : ∀ ep ∈ eps, ∀ t, bypassEndpoint tool family (id ep) t =
      Prod.map (Option.map (AddedRoute.of display)) id (SmartGuard.bypassEndpoint K family ep t) :=
    fun ep _ t => bypassEndpoint_sim h family ep t
  have hloop := collect_view hview s
  rwa [List.map_id] at hloop

theorem installPassthroughs_sim (hprints : PrintsConstants display)
    (h : Implements tool display K) (family : Family) (s : σ) :
    installPassthroughs tool family s =
      Prod.map (List.map (AddedRoute.of display)) id
        (SmartGuard.installPassthroughs K family s) := by
  have hquery : getRouteInfo tool (probe family) family s =
      SmartGuard.getRouteInfo K (.address (SmartGuard.probe family)) s := by
    obtain ⟨hshow, hfamily⟩ := probe_show family
    have haddress := getRouteInfo_address h (SmartGuard.probe family) s
    rwa [hshow, hfamily] at haddress
  have hloop : ∀ info t, collect (passthroughNet tool family info) (blackholeExemptions family) t =
      Prod.map (List.map (AddedRoute.of display)) id
        (collect (SmartGuard.passthroughNet K info) (SmartGuard.blackholeExemptions family) t) := by
    intro info t
    rw [← hprints.exemptions]
    refine collect_view ?_ t
    intro n hn u
    have hone := passthroughNet_sim h info n u
    rwa [family_of_mem_exemptions hn] at hone
  have hempty : (blackholeExemptions family).isEmpty =
      (SmartGuard.blackholeExemptions family).isEmpty := by
    rw [← hprints.exemptions, List.isEmpty_map]
  unfold installPassthroughs SmartGuard.installPassthroughs
  simp only [hempty, hquery, hloop]
  split
  · rfl
  · cases (SmartGuard.getRouteInfo K (.address (SmartGuard.probe family)) s).1 with
    | none => rfl
    | some info => rfl

/-- Routing networks into the tunnel by their texts is routing them. -/
theorem addNets_sim (h : Implements tool display K) (tun : Token) (nets : List IpNet) (s : σ) :
    collect (fun n : Arg × Family => addNet tool tun.text n.1 n.2)
        (nets.map fun n => (display n, n.family)) s =
      Prod.map (List.map (AddedRoute.of display)) id (collect (SmartGuard.addNet K tun) nets s) :=
  collect_view (fun n _ t => addNet_sim h tun n t) s

theorem tunnelNets_show (hprints : PrintsConstants display) (n : IpNet) :
    tunnelNets display n = (SmartGuard.tunnelNets n).map fun m => (display m, m.family) := by
  unfold tunnelNets SmartGuard.tunnelNets
  split
  · rw [← hprints.halves, List.map_map]
    apply List.map_congr_left
    intro m hm
    rw [Function.comp_apply, family_of_mem_halves hm]
  · rfl

theorem setupRoutes_sim (hprints : PrintsConstants display) (h : Implements tool display K)
    (tun : Token) (allowed : List IpNet) (eps : List SocketAddr) (s : σ) :
    setupRoutes tool display tun.text allowed eps s =
      Prod.map (List.map (AddedRoute.of display)) id
        (SmartGuard.setupRoutes K tun allowed eps s) := by
  have hbypass : ∀ family t,
      (if hasCatchall allowed family then installEndpointBypass tool eps family t else ([], t)) =
        Prod.map (List.map (AddedRoute.of display)) id
          (if hasCatchall allowed family then SmartGuard.installEndpointBypass K eps family t
            else ([], t)) := by
    intro family t
    split
    · exact installEndpointBypass_sim h eps family t
    · rfl
  have hnets : allowed.flatMap (tunnelNets display) =
      (allowed.flatMap SmartGuard.tunnelNets).map fun n => (display n, n.family) := by
    rw [List.map_flatMap]
    exact congrArg allowed.flatMap (funext (tunnelNets_show hprints))
  unfold setupRoutes SmartGuard.setupRoutes
  simp only [hbypass, hnets, addNets_sim h, Prod.map_fst, Prod.map_snd, id_eq, Prod.map_apply,
    List.map_append]

theorem setupUnconfiguredFamily_sim (hprints : PrintsConstants display)
    (h : Implements tool display K) (family : Family) (tun : Token) (eps : List SocketAddr)
    (s : σ) :
    setupUnconfiguredFamily tool family tun.text eps s =
      Prod.map (List.map (AddedRoute.of display)) id
        (SmartGuard.setupUnconfiguredFamily K family tun eps s) := by
  have hnets : ∀ t, collect (fun half => addNet tool tun.text half family) (halves family) t =
      Prod.map (List.map (AddedRoute.of display)) id
        (collect (SmartGuard.addNet K tun) (SmartGuard.halves family) t) := by
    intro t
    rw [← hprints.halves]
    refine collect_view ?_ t
    intro n hn u
    have hone := addNet_sim h tun n u
    rwa [family_of_mem_halves hn] at hone
  unfold setupUnconfiguredFamily SmartGuard.setupUnconfiguredFamily
  simp only [installEndpointBypass_sim h, installPassthroughs_sim hprints h, hnets, Prod.map_fst,
    Prod.map_snd, id_eq, Prod.map_apply, List.map_append]

theorem startUp_sim (hprints : PrintsConstants display) (h : Implements tool display K)
    (tun : Token) (allowed : List IpNet) (eps : List SocketAddr) (tunAddrs : List IpNet) (s : σ) :
    startUp tool display tun.text allowed eps tunAddrs s =
      Prod.map (List.map (AddedRoute.of display)) id
        (SmartGuard.startUp K tun allowed eps tunAddrs s) := by
  have hfamily : ∀ (p : Bool) family t,
      (if p then ([], t) else setupUnconfiguredFamily tool family tun.text eps t) =
        Prod.map (List.map (AddedRoute.of display)) id
          (if p then ([], t) else SmartGuard.setupUnconfiguredFamily K family tun eps t) := by
    intro p family t
    split
    · rfl
    · exact setupUnconfiguredFamily_sim hprints h family tun eps t
  unfold startUp SmartGuard.startUp
  simp only [setupRoutes_sim hprints h, hfamily, Prod.map_fst, Prod.map_snd, id_eq, Prod.map_apply,
    List.map_append]

theorem currentDefaultGateway_sim (h : Implements tool display K) (family : Family) (s : σ) :
    currentDefaultGateway tool family s =
      Prod.map (Option.map Token.text) id (SmartGuard.currentDefaultGateway K family s) := by
  have hquery : getRouteInfo tool "default".toList family s =
      SmartGuard.getRouteInfo K (.default family) s := by
    have hget := h.get (.default family) s
    simp only [RouteQuery.args] at hget
    rw [getRouteInfo, SmartGuard.getRouteInfo, hget]
  unfold currentDefaultGateway SmartGuard.currentDefaultGateway
  simp only [hquery]
  cases (SmartGuard.getRouteInfo K (.default family) s).1 with
  | none => rfl
  | some info => rfl

theorem text_injective : Function.Injective Token.text := by
  rintro ⟨a, _, _⟩ ⟨b, _, _⟩ rfl
  rfl

/-- A recheck compares texts, which is comparing names. -/
theorem recheckRoute_sim (h : Implements tool display K) (current : Family → Option Token)
    (r : SmartGuard.AddedRoute) (s : σ) :
    recheckRoute tool (fun family => (current family).map Token.text) (AddedRoute.of display r) s =
      Prod.map (AddedRoute.of display) id (SmartGuard.recheckRoute K current r s) := by
  cases r with
  | net pfx tun => rfl
  | passthrough pfx => rfl
  | host ip stored =>
      have hdelete : ∀ t, routeCmd tool
          ["-n".toList, "delete".toList, ip.family.routeFlag, "-host".toList, ip.show] t =
            K.cmd (.delete (.host ip) none) t := h.cmd (.delete (.host ip) none)
      have hadd : ∀ gw t, routeCmd tool
          ["-n".toList, "add".toList, ip.family.routeFlag, "-host".toList, ip.show,
            "-gateway".toList, Token.text gw] t = K.cmd (.add (.host ip) (.gateway gw)) t :=
        fun gw => h.cmd (.add (.host ip) (.gateway gw))
      have hsame : stored.map Token.text = (current ip.family).map Token.text ↔
          stored = current ip.family := (Option.map_injective text_injective).eq_iff
      simp only [AddedRoute.of, recheckRoute, SmartGuard.recheckRoute, hsame, hdelete]
      split
      · rfl
      · cases current ip.family with
        | none => rfl
        | some gw =>
            simp only [Option.map_some, hadd]
            cases (K.cmd (.add (.host ip) (.gateway gw))
                (K.cmd (.delete (.host ip) none) s).2).1 with
            | false => rfl
            | true => rfl

theorem recheckRoutes_sim (h : Implements tool display K) (routes : List SmartGuard.AddedRoute)
    (s : σ) :
    recheckRoutes tool (routes.map (AddedRoute.of display)) s =
      Prod.map (List.map (AddedRoute.of display)) id (SmartGuard.recheckRoutes K routes s) := by
  have hgateways : ∀ v4 v6 : Option Token,
      gateways (v4.map Token.text) (v6.map Token.text) =
        fun family => (SmartGuard.gateways v4 v6 family).map Token.text := by
    intro v4 v6
    ext1 family
    cases family with
    | V4 => rfl
    | V6 => rfl
  unfold recheckRoutes SmartGuard.recheckRoutes
  simp only [currentDefaultGateway_sim h, Prod.map_fst, Prod.map_snd, id_eq, hgateways]
  exact mapState_view (recheckRoute_sim h _) routes _

theorem cleanupRoute_sim (h : Implements tool display K) (r : SmartGuard.AddedRoute) (s : σ) :
    cleanupRoute tool (AddedRoute.of display r) s = SmartGuard.cleanupRoute K r s := by
  cases r with
  | net pfx tun => exact congrArg Prod.snd (h.cmd (.delete (.net pfx) (some tun)) s)
  | host ip gw => exact congrArg Prod.snd (h.cmd (.delete (.host ip) none) s)
  | passthrough pfx => exact congrArg Prod.snd (h.cmd (.delete (.net pfx) none) s)

theorem cleanupRoutes_sim (h : Implements tool display K) (routes : List SmartGuard.AddedRoute)
    (s : σ) :
    cleanupRoutes tool (routes.map (AddedRoute.of display)) s =
      SmartGuard.cleanupRoutes K routes s := by
  unfold cleanupRoutes SmartGuard.cleanupRoutes
  rw [List.foldl_map]
  exact congrArg (fun f => List.foldl f s routes)
    (funext fun t => funext fun r => cleanupRoute_sim h r t)

end Simulation

end RouteText

section Reader

/-! A tool for any kernel reads the command lines back, if it can read prefixes back. -/

variable (parse : Arg → Option IpNet)

def Family.ofFlag? (flag : Arg) : Option Family :=
  if flag = Family.V4.routeFlag then some .V4
  else if flag = Family.V6.routeFlag then some .V6
  else none

def RouteTarget.ofArgs? (kind dest : Arg) : Option RouteTarget :=
  if kind = "-net".toList then (parse dest).map .net
  else if kind = "-host".toList then (IpAddr.parse dest).map .host
  else none

def NextHop.ofArgs? (kind via : Arg) : Option NextHop :=
  if kind = "-gateway".toList then (Token.ofText? via).map .gateway
  else if kind = "-interface".toList then (Token.ofText? via).map .interface
  else none

/-- The command that a command line asks for. -/
def RouteCmd.ofArgs? : List Arg → Option RouteCmd
  | [_, _, _, kind, dest] =>
      (RouteTarget.ofArgs? parse kind dest).map fun target => .delete target none
  | [_, verb, _, kind, dest, viaKind, via] =>
      (RouteTarget.ofArgs? parse kind dest).bind fun target =>
        (NextHop.ofArgs? viaKind via).bind fun hop =>
          if verb = "add".toList then some (.add target hop)
          else match hop with
            | .interface iface => some (.delete target (some iface))
            | .gateway _ => none
  | _ => none

def RouteQuery.ofArgs? : List Arg → Option RouteQuery
  | [_, _, flag, dest] =>
      match IpAddr.parse dest with
      | some ip => some (.address ip)
      | none => (Family.ofFlag? flag).map .default
  | _ => none

section Lines

variable {parse} {display : IpNet → Arg} (hparse : ∀ n, parse (display n) = some n)

include hparse in
theorem RouteTarget.ofArgs?_args (t : RouteTarget) :
    ∃ kind dest, t.args display = [kind, dest] ∧ RouteTarget.ofArgs? parse kind dest = some t := by
  cases t with
  | net n =>
      refine ⟨_, _, rfl, ?_⟩
      rw [ofArgs?, if_pos rfl, hparse]
      rfl
  | host ip =>
      refine ⟨_, _, rfl, ?_⟩
      rw [ofArgs?, if_neg (by decide), if_pos rfl, ip.parse_show]
      rfl

theorem NextHop.ofArgs?_args (hop : NextHop) :
    ∃ kind via, hop.args = [kind, via] ∧ NextHop.ofArgs? kind via = some hop := by
  cases hop with
  | gateway gw =>
      refine ⟨_, _, rfl, ?_⟩
      rw [ofArgs?, if_pos rfl, gw.ofText?_text]
      rfl
  | interface iface =>
      refine ⟨_, _, rfl, ?_⟩
      rw [ofArgs?, if_neg (by decide), if_pos rfl, iface.ofText?_text]
      rfl

include hparse in
/-- A command line says all of its command. -/
theorem RouteCmd.ofArgs?_args (c : RouteCmd) :
    RouteCmd.ofArgs? parse (c.args display) = some c := by
  cases c with
  | add target via =>
      obtain ⟨kind, dest, hargs, htarget⟩ := target.ofArgs?_args hparse
      obtain ⟨viaKind, gw, hvia, hhop⟩ := via.ofArgs?_args
      simp [args, hargs, hvia, ofArgs?, htarget, hhop]
  | delete target iface =>
      obtain ⟨kind, dest, hargs, htarget⟩ := target.ofArgs?_args hparse
      cases iface with
      | none => simp [args, hargs, ofArgs?, htarget]
      | some iface =>
          obtain ⟨viaKind, gw, hvia, hhop⟩ := (NextHop.interface iface).ofArgs?_args
          simp [args, hargs, hvia, ofArgs?, htarget, hhop]

theorem RouteQuery.ofArgs?_args (q : RouteQuery) : RouteQuery.ofArgs? q.args = some q := by
  cases q with
  | default family =>
      have hnot : IpAddr.parse "default".toList = none := by decide +kernel
      have hflag : Family.ofFlag? family.routeFlag = some family := by
        cases family <;> decide
      simp only [args, ofArgs?, hnot, hflag, Option.map_some]
  | address ip => simp [args, ofArgs?, ip.parse_show]

/-- A query is no command. -/
theorem RouteCmd.ofArgs?_query (q : RouteQuery) : RouteCmd.ofArgs? parse q.args = none := by
  cases q <;> rfl

end Lines

namespace Kernel

variable {σ : Type*} (K : Kernel σ)

/-- The `route` tool of a kernel. -/
def tool : RouteTool σ where
  run args s :=
    match RouteCmd.ofArgs? parse args, RouteQuery.ofArgs? args with
    | some c, _ => (some ((K.cmd c s).1, []), (K.cmd c s).2)
    | none, some q =>
        (some ((K.get q s).1.isSome, unlines ((K.get q s).1.getD [])), (K.get q s).2)
    | none, none => (none, s)

/-- The kernel whose answers went through a text. -/
def printed : Kernel σ :=
  { K with get := fun q s => ((K.get q s).1.map fun ls => lines (unlines ls),
      (K.get q s).2) }

theorem tool_implements {parse : Arg → Option IpNet} {display : IpNet → Arg}
    (hparse : ∀ n, parse (display n) = some n) :
    RouteText.Implements (K.tool parse) display K.printed where
  cmd c s := by
    simp only [RouteText.routeCmd, tool, RouteCmd.ofArgs?_args hparse]
    rfl
  get q s := by
    simp only [RouteText.getOutput, tool, RouteCmd.ofArgs?_query, RouteQuery.ofArgs?_args,
      printed]
    cases (K.get q s).1 with
    | none => rfl
    | some ls => rfl

end Kernel

end Reader

namespace RouteText

/-- The destination of a recorded route, which a change of others leaves alone. -/
def Recorded (display : IpNet → Arg) (rs : List AddedRoute) (d : Dest) : Prop :=
  ∃ r : SmartGuard.AddedRoute, AddedRoute.of display r ∈ rs ∧ r.dest = d

/-- The run of the program after start-up, over the tool: from a state, the recorded routes
and the table without the program. -/
inductive Life {σ : Type*} (tool : RouteTool σ) (display : IpNet → Arg) (table : σ → RouteTable)
    (s : σ) (routes : List AddedRoute) (T : RouteTable) :
    σ → List AddedRoute → RouteTable → Prop
  | start : Life tool display table s routes T s routes T
  | environment {t rs U} (change : RouteChange) {u : σ}
      (run : Life tool display table s routes T t rs U)
      (spares : ∀ d, Recorded display rs d → d.len ≠ 0 → change d = none)
      (changes : table u = changed (table t) change) :
      Life tool display table s routes T u rs (changed U change)
  | recheck {t rs U} (run : Life tool display table s routes T t rs U) :
      Life tool display table s routes T (recheckRoutes tool rs t).2 (recheckRoutes tool rs t).1 U

variable {display : IpNet → Arg}

/-- Default routes may always change. -/
theorem Life.defaults {σ : Type*} {tool : RouteTool σ} {table : σ → RouteTable} {s t u : σ}
    {routes rs : List AddedRoute} {T U : RouteTable}
    (run : Life tool display table s routes T t rs U) (defaults : Family → Option NextHop)
    (change : table u = withDefaults (table t) defaults) :
    Life tool display table s routes T u rs (changed U (defaultChange defaults)) :=
  .environment _ run (fun _ _ h => defaultChange_of_ne defaults h)
    (change.trans (changed_default _ _).symm)

/-- A life over the tool is a life over the kernel, record by record. -/
theorem Life.sim {σ : Type*} {tool : RouteTool σ} {K : Kernel σ} (h : Implements tool display K)
    {s t : σ} {routes : List SmartGuard.AddedRoute} {rs : List AddedRoute} {T U : RouteTable}
    (life : Life tool display K.table s (routes.map (AddedRoute.of display)) T t rs U) :
    ∃ rs', rs = rs'.map (AddedRoute.of display) ∧ SmartGuard.Life K s routes T t rs' U := by
  induction life with
  | start => exact ⟨routes, rfl, .start⟩
  | environment change run spares changes ih =>
      obtain ⟨rs', rfl, hlife⟩ := ih
      refine ⟨rs', rfl, .environment change hlife ?_ changes⟩
      intro d hd hlen
      obtain ⟨r, hr, rfl⟩ := List.mem_map.mp hd
      exact spares _ ⟨r, List.mem_map_of_mem hr, rfl⟩ hlen
  | @recheck t rs U run ih =>
      obtain ⟨rs', rfl, hlife⟩ := ih
      have hstep := recheckRoutes_sim h rs' t
      refine ⟨(SmartGuard.recheckRoutes K rs' t).1, ?_, ?_⟩
      · rw [hstep]
        rfl
      · rw [hstep]
        exact .recheck hlife

/-- Over command lines, the life of the program from start-up on is a life over the kernel,
with the same states and the records with their texts, and deletes that succeed reverse it. -/
theorem life_refines {σ : Type*} {tool : RouteTool σ} {K : Kernel σ}
    (hprints : PrintsConstants display) (h : Implements tool display K)
    (tun : Token) (allowed : List IpNet) (eps : List SocketAddr) (tunAddrs : List IpNet)
    {s t : σ} {rs : List AddedRoute} {T : RouteTable}
    (life : Life tool display K.table (startUp tool display tun.text allowed eps tunAddrs s).2
      (startUp tool display tun.text allowed eps tunAddrs s).1 (K.table s) t rs T) :
    (∃ rs', rs = rs'.map (AddedRoute.of display) ∧
      SmartGuard.Life K (SmartGuard.startUp K tun allowed eps tunAddrs s).2
        (SmartGuard.startUp K tun allowed eps tunAddrs s).1 (K.table s) t rs' T) ∧
      (K.DeletesSucceed → K.table (cleanupRoutes tool rs t) = T) := by
  rw [startUp_sim hprints h] at life
  obtain ⟨rs', rfl, hlife⟩ := life.sim h
  refine ⟨⟨rs', rfl, hlife⟩, ?_⟩
  intro hdel
  have hstart := (startUp_records K tun allowed eps tunAddrs s).reversible
  rw [cleanupRoutes_sim h]
  exact (hlife.reversible hstart).cleanup hdel

section Sample

/-! Prefixes with a slash between the address and the length. -/

def slashed (n : IpNet) : Arg :=
  IpAddr.show ⟨n.family, n.addr⟩ ++ '/' :: Nat.toDigits 10 n.prefixLen

def unslashed (text : Arg) : Option IpNet :=
  match IpAddr.read text with
  | some (ip, '/' :: text) =>
      match Numeral.readNumber 10 (some 3) true (ip.family.width + 1) text with
      | some (len, []) =>
          if h : len ≤ ip.family.width then some ⟨ip.family, ip.bits, len, h⟩ else none
      | _ => none
  | _ => none

theorem unslashed_slashed (n : IpNet) : unslashed (slashed n) = some n := by
  have hread : IpAddr.read (slashed n) =
      some (⟨n.family, n.addr⟩, '/' :: Nat.toDigits 10 n.prefixLen) :=
    IpAddr.read_show ⟨n.family, n.addr⟩ (closes_slash _)
  have hwidth : n.family.width < 10 ^ 3 := by cases n.family <;> decide
  have hlen : Numeral.readNumber 10 (some 3) true (n.family.width + 1)
      (Nat.toDigits 10 n.prefixLen ++ []) = some (n.prefixLen, []) :=
    Numeral.readNumber_toDigits (by decide) (by decide) (Nat.lt_succ_of_le n.prefixLen_le)
      (IpText.length_le (by decide) (by decide) (n.prefixLen_le.trans_lt hwidth))
      fun _ hc => by cases hc
  rw [List.append_nil] at hlen
  rw [unslashed, hread]
  simp only [hlen, dif_pos n.prefixLen_le]

theorem slashed_prints : PrintsConstants slashed where
  halves family := by cases family <;> decide +kernel
  exemptions family := by cases family <;> decide +kernel

/-- The tool of a kernel takes a laptop to another network and back to its own routes. -/
theorem printed_life_refines :
    let tool := Kernel.scripted.tool unslashed
    let up := startUp tool slashed utun5.text [⟨.V4, 0, 0, Nat.zero_le _⟩]
      [serverEndpoint] [] (homeTable, [true, true, false])
    let checked := recheckRoutes tool up.1
      (withDefaults up.2.1 (routedBy cafeRouter), [false])
    (cleanupRoutes tool checked.1 checked.2).1 =
      withDefaults homeTable (routedBy cafeRouter) := by
  intro tool up checked
  have htable : ∀ s, Kernel.scripted.printed.table s = s.1 := fun _ => rfl
  have life : Life tool slashed Kernel.scripted.printed.table up.2 up.1 homeTable
      checked.2 checked.1 (withDefaults homeTable (routedBy cafeRouter)) := by
    have stays : Life tool slashed Kernel.scripted.printed.table up.2 up.1 homeTable up.2 up.1
        homeTable := .start
    have moved := stays.defaults (u := (withDefaults up.2.1 (routedBy cafeRouter), [false]))
      (routedBy cafeRouter) (by rw [htable, htable])
    rw [changed_default] at moved
    exact .recheck moved
  have himplements : Implements tool slashed Kernel.scripted.printed :=
    Kernel.scripted.tool_implements unslashed_slashed
  have hrefines := life_refines slashed_prints himplements utun5 [⟨.V4, 0, 0, Nat.zero_le _⟩]
    [serverEndpoint] [] (s := (homeTable, [true, true, false])) life
  have hdel : Kernel.scripted.printed.DeletesSucceed := Kernel.scripted_deletesSucceed
  rw [← htable]
  exact hrefines.2 hdel

end Sample

end RouteText

end SmartGuard
