import Mathlib.Data.List.DropRight
import SmartGuard.Net.Address
import SmartGuard.Library.StateLoop

/-!
# The kernel routing table behind the `route` command

Every route the program reads or changes goes through the system's `route`
command, which is not part of the source. It appears here as a `Kernel`: a
state with a table, and the commands the source issues, each free to fail.
What `route -n get` prints is parsed as the source parses it.
-/

namespace SmartGuard

open LongestMatch

section Text

/-- The white space that trimming removes. -/
def isBlank (c : Char) : Bool :=
  let n := c.toNat
  (9 ≤ n && n ≤ 13) || n = 0x20 || n = 0x85 || n = 0xA0 || n = 0x1680 ||
    (0x2000 ≤ n && n ≤ 0x200A) || n = 0x2028 || n = 0x2029 || n = 0x202F ||
    n = 0x205F || n = 0x3000

def trim (text : List Char) : List Char := (text.dropWhile isBlank).rdropWhile isBlank

theorem trim_eq_self {text : List Char} (hhead : ∀ h : text ≠ [], isBlank (text.head h) = false)
    (hlast : ∀ h : text ≠ [], isBlank (text.getLast h) = false) : trim text = text := by
  cases text with
  | nil => rfl
  | cons c rest =>
      have hc : isBlank c = false := hhead (by simp)
      have hdrop : (c :: rest).dropWhile isBlank = c :: rest := by simp [hc]
      rw [trim, hdrop]
      exact List.rdropWhile_eq_self_iff.mpr fun h => by simp [hlast h]

theorem trim_cons_blank {c : Char} (h : isBlank c = true) (text : List Char) :
    trim (c :: text) = trim text := by
  simp [trim, h]

/-- The last character of a trimmed text is not blank. -/
theorem getLast_of_trim {text : List Char} (h : trim text = text) (hne : text ≠ []) :
    isBlank (text.getLast hne) = false := by
  have hself : (text.dropWhile isBlank).rdropWhile isBlank = text := h
  have hidem : text.rdropWhile isBlank = text := by
    rw [← hself]
    exact List.rdropWhile_idempotent _ _
  have hlast := List.rdropWhile_eq_self_iff.mp hidem hne
  simpa using hlast

theorem trim_trim (text : List Char) : trim (trim text) = trim text := by
  apply trim_eq_self
  · intro h
    have hpre : trim text <+: text.dropWhile isBlank := List.rdropWhile_prefix isBlank _
    have hne : text.dropWhile isBlank ≠ [] := fun hnil => h (List.prefix_nil.mp (hnil ▸ hpre))
    rw [hpre.head h]
    exact List.head_dropWhile_not _ hne
  · intro h
    exact Bool.eq_false_iff.mpr
      (List.rdropWhile_last_not isBlank (text.dropWhile isBlank) h)

/-- Remove a given start from a text, if it has that start. -/
def stripStart : List Char → List Char → Option (List Char)
  | [], text => some text
  | c :: start, d :: text => if c = d then stripStart start text else none
  | _ :: _, [] => none

theorem stripStart_append (start text : List Char) :
    stripStart start (start ++ text) = some text := by
  induction start with
  | nil => rfl
  | cons c start ih => simp [stripStart, ih]

end Text

/-- A nonempty trimmed text: the name of a gateway or of an interface. -/
structure Token where
  text : List Char
  text_ne : text ≠ []
  trim_text : trim text = text
  deriving DecidableEq

/-- Trim a text and take it as a name, unless nothing is left of it. -/
def Token.ofText? (text : List Char) : Option Token :=
  if h : trim text ≠ [] then some ⟨trim text, h, trim_trim text⟩ else none

theorem Token.ofText?_text (t : Token) : Token.ofText? t.text = some t := by
  obtain ⟨text, hne, htrim⟩ := t
  simp [Token.ofText?, htrim, hne]

structure RouteInfo where
  gateway : Option Token
  interface : Option Token
  deriving DecidableEq

section Parse

/-- One line of the output of `route -n get`. -/
def parseLine (info : RouteInfo) (line : List Char) : RouteInfo :=
  let line := trim line
  match stripStart "gateway:".toList line with
  | some gw =>
      match Token.ofText? gw with
      | some gw => { info with gateway := some gw }
      | none => info
  | none =>
      match stripStart "interface:".toList line with
      | some iface =>
          match Token.ofText? iface with
          | some iface => { info with interface := some iface }
          | none => info
      | none => info

def parseRouteInfo (stdout : List (List Char)) : RouteInfo :=
  stdout.foldl parseLine { gateway := none, interface := none }

end Parse

/-- What a route leads to. -/
inductive NextHop
  | gateway (gw : Token)
  | interface (iface : Token)
  deriving DecidableEq

/-- The next hop the source makes of a query: the gateway if there is one,
else the interface. -/
def RouteInfo.hop (info : RouteInfo) : Option NextHop :=
  match info.gateway with
  | some gw => some (.gateway gw)
  | none => info.interface.map .interface

/-- The line that shows a next hop. -/
def NextHop.line : NextHop → List Char
  | .gateway gw => "gateway: ".toList ++ gw.text
  | .interface iface => "interface: ".toList ++ iface.text

theorem trim_labelled (label : List Char) (t : Token)
    (hlabel : ∀ h : label ≠ [], isBlank (label.head h) = false) (hne : label ≠ []) :
    trim (label ++ t.text) = label ++ t.text := by
  apply trim_eq_self
  · intro h
    rw [List.head_append_of_ne_nil hne]
    exact hlabel hne
  · intro h
    rw [List.getLast_append_of_ne_nil h t.text_ne]
    exact getLast_of_trim t.trim_text t.text_ne

theorem Token.ofText?_blank_cons (t : Token) : Token.ofText? (' ' :: t.text) = some t := by
  have hblank : trim (' ' :: t.text) = trim t.text := trim_cons_blank (by decide) _
  have htext := t.ofText?_text
  simpa only [Token.ofText?, hblank] using htext

/-- Parsing the line that shows a next hop recovers the next hop. -/
theorem parseRouteInfo_line (hop : NextHop) : (parseRouteInfo [hop.line]).hop = some hop := by
  cases hop with
  | gateway gw =>
      have htrim : trim (NextHop.line (.gateway gw)) = "gateway: ".toList ++ gw.text :=
        trim_labelled _ gw (by decide) (by decide)
      have hstrip : stripStart "gateway:".toList ("gateway: ".toList ++ gw.text) =
          some (' ' :: gw.text) := stripStart_append "gateway:".toList (' ' :: gw.text)
      simp only [parseRouteInfo, List.foldl_cons, List.foldl_nil, parseLine, htrim, hstrip,
        Token.ofText?_blank_cons, RouteInfo.hop]
  | interface iface =>
      have htrim : trim (NextHop.line (.interface iface)) = "interface: ".toList ++ iface.text :=
        trim_labelled _ iface (by decide) (by decide)
      have hnot : stripStart "gateway:".toList ("interface: ".toList ++ iface.text) = none := rfl
      have hstrip : stripStart "interface:".toList ("interface: ".toList ++ iface.text) =
          some (' ' :: iface.text) := stripStart_append "interface:".toList (' ' :: iface.text)
      simp only [parseRouteInfo, List.foldl_cons, List.foldl_nil, parseLine, htrim, hnot,
        hstrip, Token.ofText?_blank_cons, RouteInfo.hop, Option.map_some]

/-- The kernel's routes: a next hop by destination. -/
abbrev RouteTable := Table Dest NextHop

/-- What `route -n get` is asked for: the default route of a family or an address. -/
inductive RouteQuery
  | default (family : Family)
  | address (ip : IpAddr)
  deriving DecidableEq

/-- The default route is read literally, an address by longest match. -/
def RouteQuery.answer (T : RouteTable) : RouteQuery → Option NextHop
  | .default family => T family.defaultDest
  | .address ip => lookup T ip

/-- The `-net` and `-host` destinations of a command. -/
inductive RouteTarget
  | net (n : IpNet)
  | host (ip : IpAddr)
  deriving DecidableEq

def RouteTarget.dest : RouteTarget → Dest
  | .net n => n.dest
  | .host ip => ip.host

inductive RouteCmd
  | add (target : RouteTarget) (via : NextHop)
  | delete (target : RouteTarget) (iface : Option Token)
  deriving DecidableEq

/-- A kernel reached through the `route` command. Each call may succeed or fail
as it likes, but a successful add has found its destination absent, and a
command changes the table only by what it says, and only when it succeeds. -/
structure Kernel (σ : Type*) where
  table : σ → RouteTable
  get : RouteQuery → σ → Option (List (List Char)) × σ
  cmd : RouteCmd → σ → Bool × σ
  table_get : ∀ q s, table (get q s).2 = table s
  add_absent : ∀ t via s, (cmd (.add t via) s).1 = true → table s t.dest = none
  table_add : ∀ t via s, table (cmd (.add t via) s).2 =
    if (cmd (.add t via) s).1 then Function.update (table s) t.dest (some via) else table s
  table_delete : ∀ t iface s, table (cmd (.delete t iface) s).2 =
    if (cmd (.delete t iface) s).1 then Function.update (table s) t.dest none else table s

namespace Kernel

variable {σ : Type*} (K : Kernel σ)

/-- An add of an absent destination succeeds. -/
def AddsSucceed : Prop :=
  ∀ t via s, K.table s (RouteTarget.dest t) = none → (K.cmd (.add t via) s).1 = true

/-- A delete of a present destination succeeds. -/
def DeletesSucceed : Prop :=
  ∀ t iface s, K.table s (RouteTarget.dest t) ≠ none → (K.cmd (.delete t iface) s).1 = true

end Kernel

/-- Ask for a route and parse the answer. A command that cannot be run or that
fails gives no answer. -/
def getRouteInfo {σ : Type*} (K : Kernel σ) (q : RouteQuery) (s : σ) : Option RouteInfo × σ :=
  let output := K.get q s
  (output.1.map parseRouteInfo, output.2)

namespace Kernel

variable {σ : Type*} (K : Kernel σ)

/-- Where deletes succeed, a deleted destination is absent whether or not it was
present. -/
theorem table_delete_of_succeed {K : Kernel σ} (h : K.DeletesSucceed) (t : RouteTarget)
    (iface : Option Token) (s : σ) :
    K.table (K.cmd (.delete t iface) s).2 = Function.update (K.table s) t.dest none := by
  rw [K.table_delete]
  by_cases hpresent : K.table s t.dest = none
  · have hsame : Function.update (K.table s) t.dest none = K.table s := by
      rw [← hpresent]
      exact Function.update_eq_self _ _
    rw [hsame, ite_self]
  · rw [if_pos (h t iface s hpresent)]

/-- An add changes the table at its destination only. -/
theorem table_add_of_ne {t : RouteTarget} {d : Dest} (via : NextHop) (s : σ)
    (h : d ≠ t.dest) : K.table (K.cmd (.add t via) s).2 d = K.table s d := by
  rw [K.table_add]
  split
  · exact Function.update_of_ne h _ _
  · rfl

/-- A delete changes the table at its destination only. -/
theorem table_delete_of_ne {t : RouteTarget} {d : Dest} (iface : Option Token) (s : σ)
    (h : d ≠ t.dest) : K.table (K.cmd (.delete t iface) s).2 d = K.table s d := by
  rw [K.table_delete]
  split
  · exact Function.update_of_ne h _ _
  · rfl

/-- Every query is answered from the table: the default route literally, an
address by longest match. -/
def Answers : Prop :=
  ∀ q s, (getRouteInfo K q s).1.map RouteInfo.hop = (q.answer (K.table s)).map some

@[simp] theorem table_getRouteInfo (q : RouteQuery) (s : σ) :
    K.table (getRouteInfo K q s).2 = K.table s := K.table_get q s

theorem Answers.info {K : Kernel σ} (h : K.Answers) {q : RouteQuery} {s : σ} {hop : NextHop}
    (hq : q.answer (K.table s) = some hop) :
    ∃ info, (getRouteInfo K q s).1 = some info ∧ info.hop = some hop := by
  have hans := h q s
  rw [hq, Option.map_some, Option.map_eq_some_iff] at hans
  exact hans

theorem Answers.answer {K : Kernel σ} (h : K.Answers) {q : RouteQuery} {s : σ}
    {info : RouteInfo} (hq : (getRouteInfo K q s).1 = some info) :
    ∃ hop, q.answer (K.table s) = some hop ∧ info.hop = some hop := by
  have hans := h q s
  rw [hq, Option.map_some] at hans
  obtain ⟨hop, hhop, heq⟩ := Option.map_eq_some_iff.mp hans.symm
  exact ⟨hop, hhop, heq.symm⟩

theorem Answers.no_answer {K : Kernel σ} (h : K.Answers) {q : RouteQuery} {s : σ}
    (hq : (getRouteInfo K q s).1 = none) : q.answer (K.table s) = none := by
  have hans := h q s
  rw [hq, Option.map_none] at hans
  exact Option.map_eq_none_iff.mp hans.symm

section Simulated

variable {ρ : Type*}

/-- A kernel that answers every query from its table and deletes what is
present. The fate of an add of an absent destination is drawn from `fate`. -/
def simulated (fate : ρ → Bool × ρ) : Kernel (RouteTable × ρ) where
  table s := s.1
  get q s := ((q.answer s.1).map fun hop => [hop.line], s)
  cmd
    | .add t via, s =>
        match s.1 t.dest, fate s.2 with
        | none, (true, rest) => (true, Function.update s.1 t.dest (some via), rest)
        | _, (_, rest) => (false, s.1, rest)
    | .delete t _, s =>
        ((s.1 t.dest).isSome, Function.update s.1 t.dest none, s.2)
  table_get _ _ := rfl
  add_absent t via s h := by
    cases hT : s.1 t.dest with
    | none => rfl
    | some hop => simp [hT] at h
  table_add t via s := by
    cases hT : s.1 t.dest with
    | none => cases hf : fate s.2 with | mk ok rest => cases ok <;> simp [hT, hf]
    | some hop => simp [hT]
  table_delete t iface s := by
    cases hT : s.1 t.dest with
    | none => simp [← hT]
    | some hop => simp [hT]

/-- A kernel whose commands fail only when the table refuses them. -/
def ideal : Kernel (RouteTable × Unit) := simulated fun u => (true, u)

/-- A kernel whose adds of absent destinations follow a script, and succeed
once the script is over. -/
def scripted : Kernel (RouteTable × List Bool) :=
  simulated fun
    | [] => (true, [])
    | ok :: rest => (ok, rest)

theorem simulated_answers (fate : ρ → Bool × ρ) : (simulated fate).Answers := by
  intro q s
  cases hq : q.answer s.1 with
  | none => simp [getRouteInfo, simulated, hq]
  | some hop => simp [getRouteInfo, simulated, hq, parseRouteInfo_line]

theorem simulated_deletesSucceed (fate : ρ → Bool × ρ) : (simulated fate).DeletesSucceed := by
  intro t iface s h
  exact Option.isSome_iff_ne_none.mpr h

theorem ideal_answers : ideal.Answers := simulated_answers _

theorem scripted_answers : scripted.Answers := simulated_answers _

theorem scripted_deletesSucceed : scripted.DeletesSucceed := simulated_deletesSucceed _

theorem ideal_addsSucceed : ideal.AddsSucceed := by
  intro t via s h
  have hT : s.1 t.dest = none := h
  simp [ideal, simulated, hT]

end Simulated

/-- The same kernel with a record of every command and its outcome. -/
def logged (K : Kernel σ) : Kernel (σ × List (RouteCmd × Bool)) where
  table s := K.table s.1
  get q s :=
    let output := K.get q s.1
    (output.1, output.2, s.2)
  cmd c s :=
    let out := K.cmd c s.1
    (out.1, out.2, s.2 ++ [(c, out.1)])
  table_get q s := K.table_get q s.1
  add_absent t via s := K.add_absent t via s.1
  table_add t via s := K.table_add t via s.1
  table_delete t iface s := K.table_delete t iface s.1

@[simp] theorem table_logged (s : σ × List (RouteCmd × Bool)) :
    K.logged.table s = K.table s.1 := rfl

theorem Answers.logged {K : Kernel σ} (h : K.Answers) : K.logged.Answers :=
  fun q s => h q s.1

end Kernel

end SmartGuard
