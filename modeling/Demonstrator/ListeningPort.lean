/-
The port the server listens on.

The constructor of the adaptor starts the OS thread before it looks at the command line.
So while the constructor goes through the arguments and sets `m_tcpip_port`, the thread
reads it for the address it binds.  Nothing orders the two: the permission that the thread
waits for later comes after its socket is listening.

`AdaptorStart` is the constructor, one argument at a time, and the thread, one call at a
time.  `listening_iff` says which ports there may be: those that any first part of the
arguments sets, with the default for none of them.  The constructor announces the port that
all of them set, so what it announces is what the thread listens on in every start only if
no argument sets another port than the default one.
-/
import Demonstrator.CommandLine
import Demonstrator.Lib.Transition

namespace Demonstrator

open Transition ListSearch

/-- `atoi` -/
def atoi (text : Text) : Int32 := .ofInt (strtol text)

/-- `htons` of a port, as a number. -/
def sinPort (port : Int32) : UInt16 := .ofInt port.toInt

/-- What the arguments set. -/
structure AdaptorConfig where
  /-- `m_tcpip_port` -/
  tcpipPort : Int32
  /-- `sc_report_handler::get_verbosity_level()` -/
  verbosity : Nat
  deriving DecidableEq, Repr

/-- As the constructor begins; `report` has set the verbosity to `SC_MEDIUM`. -/
def AdaptorConfig.default : AdaptorConfig where
  tcpipPort := 4000
  verbosity := 200

/-- The option before the port. -/
def portOption : Text := "-port=".toList

/-- The body of the loop over the arguments, with `SC_DEBUG` and the other levels. -/
def AdaptorConfig.parse (config : AdaptorConfig) (arg : Text) : AdaptorConfig :=
  if find arg "-debug".toList = some 0 then { config with verbosity := 500 }
  else if find arg "-quiet".toList = some 0 then { config with verbosity := 0 }
  else if find arg "-low".toList = some 0 then { config with verbosity := 100 }
  else if find arg "-medium".toList = some 0 then { config with verbosity := 200 }
  else if find arg "-high".toList = some 0 then { config with verbosity := 300 }
  else if find arg "-full".toList = some 0 then { config with verbosity := 400 }
  else if find arg portOption = some 0 then { config with tcpipPort := atoi (arg.drop 6) }
  else config

def AdaptorConfig.parseAll (config : AdaptorConfig) (args : List Text) : AdaptorConfig :=
  args.foldl AdaptorConfig.parse config

/-- Where `async_os_thread` is, up to its wait for permission. -/
inductive OsSetup where
  | socket
  /-- It fills in `local_server`. -/
  | prepare
  | setsockopt
  | bind
  | listen
  | listening
  /-- A fatal report has ended the program. -/
  | fatal (message : String)
  deriving DecidableEq, Repr

/-- The constructor and the thread. -/
structure AdaptorStart where
  /-- The arguments that the constructor has still to look at. -/
  rest : List Text
  config : AdaptorConfig
  /-- "CONFIGURATION", as it was reported. -/
  announced : Option AdaptorConfig
  os : OsSetup
  /-- `local_server.sin_port` -/
  sinPort : UInt16
  deriving DecidableEq

/-- The thread has been created; `local_server` is uninitialized. -/
def AdaptorStart.initial (argv : List Text) (sinPort : UInt16) : AdaptorStart where
  rest := argv.drop 1
  config := .default
  announced := none
  os := .socket
  sinPort := sinPort

/-- What can happen next. -/
inductive AdaptorAction where
  /-- The constructor looks at the next argument, or reports the configuration. -/
  | construct
  /-- The thread makes its next call; `ok` is the outcome of those it checks. -/
  | os (ok : Bool)
  deriving DecidableEq, Repr

namespace AdaptorStart

def construct (s : AdaptorStart) : Option AdaptorStart :=
  match s.os, s.rest, s.announced with
  | .fatal _, _, _ => none
  | _, arg :: rest, _ => some { s with rest := rest, config := s.config.parse arg }
  | _, [], none => some { s with announced := some s.config }
  | _, [], some _ => none

/-- The next call of the thread: where it is after it. -/
def osCall (s : AdaptorStart) (ok : Bool) : Option OsSetup :=
  match s.os with
  | .socket => some (if ok then .prepare else .fatal "Could not create socket")
  | .prepare => some .setsockopt
  | .setsockopt => some (if ok then .bind else .fatal "Unable to set socket option")
  | .bind => some (if ok then .listen else .fatal "Bind failed")
  | .listen => some .listening
  | .listening | .fatal _ => none

def step (s : AdaptorStart) : AdaptorAction → Option AdaptorStart
  | .construct => s.construct
  | .os ok => (s.osCall ok).map fun os =>
      { s with
        os := os
        sinPort := if s.os = .prepare then Demonstrator.sinPort s.config.tcpipPort else s.sinPort }

/-- The program goes on. -/
def Alive (s : AdaptorStart) : Prop := ∀ message, s.os ≠ .fatal message

/-- The thread has read the port. -/
def prepared (s : AdaptorStart) : Bool :=
  match s.os with
  | .setsockopt | .bind | .listen | .listening => true
  | .socket | .prepare | .fatal _ => false

end AdaptorStart

/-- The start of the server. -/
def adaptorMachine (argv : List Text) (garbage : UInt16) : Machine AdaptorStart AdaptorAction where
  init := .initial argv garbage
  step := AdaptorStart.step

/-! ### What the arguments set -/

theorem not_prefix_port {option name : Text} {c : Char} (hoption : option = '-' :: c :: name)
    (hc : c ≠ 'p') (text : Text) : ¬ option <+: portOption ++ text := by
  subst hoption
  exact fun h => hc (List.cons_prefix_cons.mp (List.cons_prefix_cons.mp h).2).1

theorem parse_port (config : AdaptorConfig) (text : Text) :
    config.parse (portOption ++ text) = { config with tcpipPort := atoi text } := by
  unfold AdaptorConfig.parse
  simp only [find_eq_zero_iff]
  rw [if_neg (not_prefix_port (rfl : "-debug".toList = '-' :: 'd' :: _) (by decide) text),
    if_neg (not_prefix_port (rfl : "-quiet".toList = '-' :: 'q' :: _) (by decide) text),
    if_neg (not_prefix_port (rfl : "-low".toList = '-' :: 'l' :: _) (by decide) text),
    if_neg (not_prefix_port (rfl : "-medium".toList = '-' :: 'm' :: _) (by decide) text),
    if_neg (not_prefix_port (rfl : "-high".toList = '-' :: 'h' :: _) (by decide) text),
    if_neg (not_prefix_port (rfl : "-full".toList = '-' :: 'f' :: _) (by decide) text),
    if_pos (List.prefix_append portOption text)]
  rfl

theorem parse_other (config : AdaptorConfig) {arg : Text} (h : ¬ portOption <+: arg) :
    (config.parse arg).tcpipPort = config.tcpipPort := by
  unfold AdaptorConfig.parse
  simp only [find_eq_zero_iff, if_neg h]
  split_ifs <;> rfl

/-- No argument sets another port than the default one, as far as `htons` can tell. -/
def KeepsDefaultPort (args : List Text) : Prop :=
  ∀ text, portOption ++ text ∈ args → sinPort (atoi text) = sinPort AdaptorConfig.default.tcpipPort

theorem parse_keeps {config : AdaptorConfig} {arg : Text} (harg : KeepsDefaultPort [arg])
    (h : sinPort config.tcpipPort = sinPort AdaptorConfig.default.tcpipPort) :
    sinPort (config.parse arg).tcpipPort = sinPort AdaptorConfig.default.tcpipPort := by
  by_cases hport : portOption <+: arg
  · obtain ⟨text, rfl⟩ := hport
    rw [parse_port]
    exact harg text (List.mem_singleton_self _)
  · rw [parse_other config hport]
    exact h

theorem parseAll_concat (config : AdaptorConfig) (args : List Text) (arg : Text) :
    config.parseAll (args ++ [arg]) = (config.parseAll args).parse arg := by
  unfold AdaptorConfig.parseAll
  rw [List.foldl_append]
  rfl

/-- The first part of the arguments sets the default port, wherever it ends, if and only if
no argument sets another. -/
theorem keepsDefaultPort_iff (args : List Text) :
    KeepsDefaultPort args ↔ ∀ front back, args = front ++ back →
      sinPort (AdaptorConfig.default.parseAll front).tcpipPort
        = sinPort AdaptorConfig.default.tcpipPort := by
  refine ⟨?_, ?_⟩
  · intro h front
    induction front using List.reverseRecOn with
    | nil => intro back _; rfl
    | append_singleton front arg ih =>
        intro back heq
        rw [parseAll_concat]
        refine parse_keeps ?_ (ih (arg :: back) (by rw [heq]; simp))
        intro text htext
        refine h text ?_
        rw [heq, List.mem_singleton.mp htext]
        simp
  · intro h text htext
    obtain ⟨front, back, rfl⟩ := List.append_of_mem htext
    have hport := h (front ++ [portOption ++ text]) back (by simp)
    rwa [parseAll_concat, parse_port] at hport

/-! ### What the thread may read -/

/-- The constructor is somewhere in the arguments, and the thread has read what some first
part of them sets. -/
structure Parsing (argv : List Text) (s : AdaptorStart) : Prop where
  parsed : ∃ done, argv.drop 1 = done ++ s.rest ∧
    s.config = AdaptorConfig.default.parseAll done ∧
    (s.prepared = true → ∃ front back, done = front ++ back ∧
      s.sinPort = sinPort (AdaptorConfig.default.parseAll front).tcpipPort)
  announced : ∀ config, s.announced = some config →
    config = AdaptorConfig.default.parseAll (argv.drop 1)

theorem Parsing.initial (argv : List Text) (garbage : UInt16) :
    Parsing argv (.initial argv garbage) where
  parsed := ⟨[], rfl, rfl, nofun⟩
  announced := nofun

section Steps

variable {argv : List Text} {garbage : UInt16} {s s' : AdaptorStart}

theorem Parsing.construct (h : Parsing argv s) (hs : s.construct = some s') : Parsing argv s' := by
  obtain ⟨done, hdone, hconfig, hread⟩ := h.parsed
  unfold AdaptorStart.construct at hs
  split at hs
  · exact absurd hs (by simp)
  · rename_i arg rest hrest _
    obtain rfl := Option.some.inj hs
    refine ⟨⟨done ++ [arg], ?_, ?_, ?_⟩, h.announced⟩
    · rw [hdone, hrest, List.append_assoc]
      rfl
    · rw [parseAll_concat, hconfig]
    · intro hprepared
      obtain ⟨front, back, rfl, hport⟩ := hread hprepared
      exact ⟨front, back ++ [arg], List.append_assoc _ _ _, hport⟩
  · rename_i hrest _ _
    obtain rfl := Option.some.inj hs
    refine ⟨⟨done, hdone, hconfig, hread⟩, ?_⟩
    intro config hannounced
    rw [← Option.some.inj hannounced, hconfig, hdone, hrest, List.append_nil]
  · exact absurd hs (by simp)

/-- The call that makes the thread prepared is the one in which it reads the port. -/
theorem prepared_of_osCall {ok : Bool} {os : OsSetup} (hcall : s.osCall ok = some os)
    (hprepare : s.os ≠ .prepare) {port : UInt16}
    (hprepared : ({ s with os := os, sinPort := port } : AdaptorStart).prepared = true) :
    s.prepared = true := by
  unfold AdaptorStart.osCall at hcall
  unfold AdaptorStart.prepared at hprepared ⊢
  cases hos : s.os with
  | prepare => exact absurd hos hprepare
  | setsockopt | bind | listen | listening => rfl
  | socket =>
      rw [hos] at hcall
      obtain rfl := Option.some.inj hcall
      cases ok <;> exact Bool.noConfusion hprepared
  | fatal message =>
      rw [hos] at hcall
      exact absurd hcall (by simp)

theorem Parsing.os (h : Parsing argv s) {ok : Bool} (hs : s.step (.os ok) = some s') :
    Parsing argv s' := by
  obtain ⟨done, hdone, hconfig, hread⟩ := h.parsed
  obtain ⟨os, hcall, rfl⟩ := Option.map_eq_some_iff.mp hs
  refine ⟨⟨done, hdone, hconfig, ?_⟩, h.announced⟩
  intro hprepared
  dsimp only
  by_cases hprepare : s.os = .prepare
  · rw [if_pos hprepare]
    exact ⟨done, [], (List.append_nil _).symm, by rw [hconfig]⟩
  · rw [if_neg hprepare]
    exact hread (prepared_of_osCall hcall hprepare hprepared)

theorem parsing_of_reachable (h : Reachable (adaptorMachine argv garbage) s) : Parsing argv s :=
  h.invariant (P := Parsing argv) (.initial argv garbage) fun _ a _ _ hparsing _ hs =>
    match a with
    | .construct => hparsing.construct hs
    | .os _ => hparsing.os hs

/-- The constructor may go on while the thread does not. -/
theorem reachable_parseAll : ∀ (front : List Text) {back : List Text} {s : AdaptorStart},
    Reachable (adaptorMachine argv garbage) s → s.Alive → s.rest = front ++ back →
      Reachable (adaptorMachine argv garbage)
        { s with rest := back, config := s.config.parseAll front } := by
  intro front
  induction front with
  | nil =>
      rintro back s h - rfl
      exact h
  | cons arg front ih =>
      intro back s h halive hrest
      have hconstruct : s.construct =
          some { s with rest := front ++ back, config := s.config.parse arg } := by
        unfold AdaptorStart.construct
        split
        · exact absurd ‹_› (halive _)
        · rename_i hcons _
          obtain ⟨rfl, rfl⟩ := List.cons.inj (hrest.symm.trans hcons)
          rfl
        · rename_i hnil _ _
          exact absurd (hrest.symm.trans hnil) (by simp)
        · rename_i hnil _ _
          exact absurd (hrest.symm.trans hnil) (by simp)
      exact ih (.step (a := .construct) h trivial hconstruct) halive rfl

/-- The thread may go on, up to its socket that is listening, while the constructor does not. -/
theorem reachable_listening (h : Reachable (adaptorMachine argv garbage) s) (hos : s.os = .socket) :
    Reachable (adaptorMachine argv garbage)
      { s with os := .listening, sinPort := sinPort s.config.tcpipPort } := by
  have hrun : (adaptorMachine argv garbage).run s (List.replicate 5 (.os true)) =
      some { s with os := .listening, sinPort := sinPort s.config.tcpipPort } := by
    obtain ⟨rest, config, announced, os, port⟩ := s
    subst hos
    rfl
  exact Machine.reachable_of_run _ h hrun

end Steps

/-- The thread listens on a port that some first part of the arguments sets. -/
theorem port_of_listening {argv : List Text} {garbage : UInt16} {s : AdaptorStart}
    (h : Reachable (adaptorMachine argv garbage) s) (hos : s.os = .listening) :
    ∃ front back, argv.drop 1 = front ++ back ∧
      s.sinPort = sinPort (AdaptorConfig.default.parseAll front).tcpipPort := by
  obtain ⟨done, hdone, -, hread⟩ := (parsing_of_reachable h).parsed
  obtain ⟨front, back, rfl, hport⟩ := hread (by rw [AdaptorStart.prepared, hos])
  exact ⟨front, back ++ s.rest, by rw [hdone, List.append_assoc], hport⟩

/-- What the constructor announces is always the same, and the ports there may be then are
those that any first part of the arguments sets. -/
theorem listening_iff (argv : List Text) (garbage q : UInt16) :
    (∃ s, Reachable (adaptorMachine argv garbage) s ∧ s.os = .listening ∧
        s.announced = some (AdaptorConfig.default.parseAll (argv.drop 1)) ∧ s.sinPort = q) ↔
      ∃ front back, argv.drop 1 = front ++ back ∧
        q = sinPort (AdaptorConfig.default.parseAll front).tcpipPort := by
  refine ⟨?_, ?_⟩
  · rintro ⟨s, h, hos, -, rfl⟩
    exact port_of_listening h hos
  · rintro ⟨front, back, heq, rfl⟩
    have hfront := reachable_parseAll front (.init (m := adaptorMachine argv garbage)) nofun heq
    have hlistening := reachable_listening hfront rfl
    have hback := reachable_parseAll back hlistening nofun (List.append_nil back).symm
    have hannounced := ReachableVia.step (a := .construct) hback trivial rfl
    refine ⟨_, hannounced, rfl, ?_, rfl⟩
    rw [heq]
    exact congrArg some (List.foldl_append ..).symm

/-- The ports that the server may listen on are those that any first part of the arguments
sets.  It listens on the port it announces in every start exactly when no argument sets another
port than the default one. -/
theorem listens_as_announced_iff (argv : List Text) (garbage : UInt16) :
    (∀ q, (∃ s, Reachable (adaptorMachine argv garbage) s ∧ s.os = .listening ∧
          s.announced = some (AdaptorConfig.default.parseAll (argv.drop 1)) ∧ s.sinPort = q) ↔
        ∃ front back, argv.drop 1 = front ++ back ∧
          q = sinPort (AdaptorConfig.default.parseAll front).tcpipPort) ∧
    ((∀ s, Reachable (adaptorMachine argv garbage) s → s.os = .listening →
        ∀ config, s.announced = some config → s.sinPort = sinPort config.tcpipPort) ↔
      KeepsDefaultPort (argv.drop 1)) := by
  rw [keepsDefaultPort_iff]
  refine ⟨listening_iff argv garbage, ?_, ?_⟩
  · intro h
    -- what any first part sets is what all arguments set, and so what none of them sets
    have hall : ∀ front back, argv.drop 1 = front ++ back →
        sinPort (AdaptorConfig.default.parseAll front).tcpipPort =
          sinPort (AdaptorConfig.default.parseAll (argv.drop 1)).tcpipPort := by
      intro front back heq
      obtain ⟨s, hs, hos, hannounced, hport⟩ :=
        (listening_iff argv garbage _).mpr ⟨front, back, heq, rfl⟩
      rw [← hport]
      exact h s hs hos _ hannounced
    intro front back heq
    exact (hall front back heq).trans (hall [] (argv.drop 1) rfl).symm
  · intro h s hs hos config hannounced
    obtain ⟨front, back, heq, hport⟩ := port_of_listening hs hos
    rw [hport, (parsing_of_reachable hs).announced config hannounced, h front back heq,
      h (argv.drop 1) [] (List.append_nil _).symm]

/-! ### Whether the client finds it -/

theorem range_of_opened {argv : List Text} {hostname : Text} {port : Int}
    (h : softwareMain argv = .opened hostname port) : 2000 ≤ port ∧ port ≤ 65535 := by
  unfold softwareMain at h
  split at h
  · exact absurd h (by simp)
  · rename_i text _
    dsimp only at h
    split at h
    · exact absurd h (by simp)
    · rename_i hnone
      obtain ⟨-, rfl⟩ := MainEnd.opened.inj h
      exact (portErrors_eq_nil_iff _).mp (List.append_eq_nil_iff.mp (not_not.mp hnone)).2

/-- A client that has accepted its port connects to the server in every start exactly when
the port is the default one, and no argument of the server sets another. -/
theorem client_meets_server_iff {clientArgv : List Text} {hostname : Text} {port : Int}
    (h : softwareMain clientArgv = .opened hostname port) (argv : List Text) (garbage : UInt16) :
    (∀ s, Reachable (adaptorMachine argv garbage) s → s.os = .listening →
        s.sinPort = outgoingSinPort port) ↔
      port = 4000 ∧ KeepsDefaultPort (argv.drop 1) := by
  have hexact := (sinPorts_iff (range_of_opened h)).1
  rw [keepsDefaultPort_iff]
  refine ⟨?_, ?_⟩
  · intro hmeets
    have hall : ∀ front back, argv.drop 1 = front ++ back →
        sinPort (AdaptorConfig.default.parseAll front).tcpipPort = outgoingSinPort port := by
      intro front back heq
      obtain ⟨s, hs, hos, -, hport⟩ := (listening_iff argv garbage _).mpr ⟨front, back, heq, rfl⟩
      rw [← hport]
      exact hmeets s hs hos
    have hdefault : outgoingSinPort port = 4000 := (hall [] (argv.drop 1) rfl).symm
    refine ⟨?_, ?_⟩
    · rw [hdefault] at hexact
      exact hexact.symm
    · intro front back heq
      exact (hall front back heq).trans hdefault
  · rintro ⟨rfl, hkeeps⟩ s hs hos
    obtain ⟨front, back, heq, hport⟩ := port_of_listening hs hos
    rw [hport, hkeeps front back heq]
    rfl

theorem client_meets_server_iff_5000 :
    ¬ ∀ s, Reachable (adaptorMachine ["server".toList, "-port=5000".toList] 0) s →
      s.os = .listening → s.sinPort = outgoingSinPort 5000 := by
  have hopened : softwareMain ["software".toList, "localhost".toList, "5000".toList] =
      .opened "localhost".toList 5000 := by decide
  intro hmeets
  exact absurd ((client_meets_server_iff hopened _ 0).mp hmeets).1 (by decide)

end Demonstrator
