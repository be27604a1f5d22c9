import StreamSql.Config.Environment
import StreamSql.Proofs.Config.Urls

/-!
# Configurations under environment variables

Variables are taken one after the other, and the first that cannot be read ends this with what was
overridden until then. Main result: overriding once more changes neither the configuration nor the
outcome, a failure leaves everything but the address as it was, and a success shows all that is set.
-/
namespace StreamSql

namespace Environment

variable {env : Environment}

theorem portOr_eq_ok_iff {port p : UInt16} :
    env.portOr port = .ok p ↔
      (∀ text ∈ env.port, portOfText? text = some p) ∧ (env.port = none → p = port) := by
  unfold portOr
  cases env.port with
  | none => simp [eq_comm]
  | some text => cases h : portOfText? text <;> simp [h]

theorem portOr_eq_error_iff {port : UInt16} {cause : Misconfiguration} :
    env.portOr port = .error cause ↔
      ∃ text ∈ env.port, portOfText? text = none ∧ cause = .invalidPort text := by
  unfold portOr
  cases env.port with
  | none => simp
  | some text => cases h : portOfText? text <;> simp [h, eq_comm]

theorem protocolOr_eq_ok_iff {protocol p : Protocol} :
    env.protocolOr protocol = .ok p ↔
      (∀ text ∈ env.protocol, Protocol.ofText text = .ok p) ∧
        (env.protocol = none → p = protocol) := by
  unfold protocolOr
  cases env.protocol <;> simp [eq_comm]

theorem protocolOr_eq_error_iff {protocol : Protocol} {cause : Misconfiguration} :
    env.protocolOr protocol = .error cause ↔
      ∃ text ∈ env.protocol, Protocol.ofText text = .error cause := by
  unfold protocolOr
  cases env.protocol <;> simp

/-- What was read for a port is read again in its place. -/
theorem portOr_of_eq_ok {port p : UInt16} (h : env.portOr port = .ok p) : env.portOr p = .ok p := by
  rw [portOr_eq_ok_iff] at h ⊢
  exact ⟨h.1, fun _ => rfl⟩

theorem protocolOr_of_eq_ok {protocol p : Protocol} (h : env.protocolOr protocol = .ok p) :
    env.protocolOr p = .ok p := by
  rw [protocolOr_eq_ok_iff] at h ⊢
  exact ⟨h.1, fun _ => rfl⟩

theorem credentials_credentials (env : Environment) (auth : Option Credentials) :
    env.credentials (env.credentials auth) = env.credentials auth := by
  obtain ⟨host, port, protocol, username, password⟩ := env
  cases username <;> cases password <;> cases auth <;> rfl

/-- A user name is always signed in with, and a password by whoever signs in. -/
theorem credentials_shows (env : Environment) (auth : Option Credentials) :
    (∀ username ∈ env.username, ∃ a ∈ env.credentials auth, a.username = username) ∧
      ∀ password ∈ env.password, ∀ a ∈ env.credentials auth, a.password = password := by
  obtain ⟨host, port, protocol, username, password⟩ := env
  cases username <;> cases password <;> cases auth <;> simp [credentials]

end Environment

namespace Config

/-- An override ends at the port, at the protocol or not at all. -/
theorem override_cases (c : Config) (env : Environment) :
    (∃ cause, env.portOr c.port = .error cause ∧
      c.override env = ({ c with host := env.host.getD c.host }, .error cause)) ∨
    (∃ port cause, env.portOr c.port = .ok port ∧ env.protocolOr c.protocol = .error cause ∧
      c.override env = ({ c with host := env.host.getD c.host, port }, .error cause)) ∨
    ∃ port protocol, env.portOr c.port = .ok port ∧ env.protocolOr c.protocol = .ok protocol ∧
      c.override env =
        ({ c with
          host := env.host.getD c.host
          port
          protocol
          auth := env.credentials c.auth }, .ok ()) := by
  cases hport : env.portOr c.port with
  | error cause =>
    refine .inl ⟨cause, rfl, ?_⟩
    simp only [override, hport]
  | ok port =>
    cases hprotocol : env.protocolOr c.protocol with
    | error cause =>
      refine .inr (.inl ⟨port, cause, rfl, rfl, ?_⟩)
      simp only [override, hport, hprotocol]
    | ok protocol =>
      refine .inr (.inr ⟨port, protocol, rfl, rfl, ?_⟩)
      simp only [override, hport, hprotocol]

/-- The configuration shows what the variables are set to, the password where someone signs in. -/
structure Shows (c : Config) (env : Environment) : Prop where
  host : ∀ host ∈ env.host, c.host = host
  port : ∀ text ∈ env.port, portOfText? text = some c.port
  protocol : ∀ text ∈ env.protocol, Protocol.ofText text = .ok c.protocol
  username : ∀ username ∈ env.username, ∃ auth ∈ c.auth, auth.username = username
  password : ∀ password ∈ env.password, ∀ auth ∈ c.auth, auth.password = password

theorem override_of_overridden (c : Config) (env : Environment) :
    (c.override env).1.override env = c.override env := by
  have hhost : ∀ host : String, env.host.getD (env.host.getD host) = env.host.getD host := by
    intro host
    cases env.host <;> rfl
  rcases c.override_cases env with ⟨cause, hport, h⟩ | ⟨port, cause, hport, hprotocol, h⟩ |
    ⟨port, protocol, hport, hprotocol, h⟩
  · rw [h]
    simp only [override, hhost, hport]
  · have hport := Environment.portOr_of_eq_ok hport
    rw [h]
    simp only [override, hhost, hport, hprotocol]
  · have hport := Environment.portOr_of_eq_ok hport
    have hprotocol := Environment.protocolOr_of_eq_ok hprotocol
    rw [h]
    simp only [override, hhost, hport, hprotocol, Environment.credentials_credentials]

/-- The port that is left behind by a failure is the old one, or it was read. -/
theorem override_eq_error {c : Config} {env : Environment} {cause : Misconfiguration}
    (herror : (c.override env).2 = .error cause) :
    ∃ host port, (c.override env).1 = { c with host, port } ∧
      (port ≠ c.port → ∃ text ∈ env.port, portOfText? text = some port) := by
  rcases c.override_cases env with ⟨cause, -, h⟩ | ⟨port, cause, hport, -, h⟩ |
    ⟨port, protocol, -, -, h⟩
  · rw [h]
    exact ⟨_, c.port, rfl, fun hne => absurd rfl hne⟩
  · rw [h]
    refine ⟨_, port, rfl, fun hne => ?_⟩
    obtain ⟨hread, hunset⟩ := Environment.portOr_eq_ok_iff.mp hport
    obtain ⟨text, htext⟩ := Option.ne_none_iff_exists'.mp fun hnone => hne (hunset hnone)
    exact ⟨text, htext, hread text htext⟩
  · rw [h] at herror
    cases herror

theorem override_eq_ok_iff (c : Config) (env : Environment) :
    (c.override env).2 = .ok () ↔ (c.override env).1.Shows env := by
  rcases c.override_cases env with ⟨cause, hport, h⟩ | ⟨port, cause, -, hprotocol, h⟩ |
    ⟨port, protocol, hport, hprotocol, h⟩
  · rw [h]
    refine iff_of_false (fun hok => nomatch hok) fun hshows => ?_
    obtain ⟨text, htext, hread, -⟩ := Environment.portOr_eq_error_iff.mp hport
    exact absurd (hread.symm.trans (hshows.port text htext)) (Option.some_ne_none _).symm
  · rw [h]
    refine iff_of_false (fun hok => nomatch hok) fun hshows => ?_
    obtain ⟨text, htext, hread⟩ := Environment.protocolOr_eq_error_iff.mp hprotocol
    exact nomatch hread.symm.trans (hshows.protocol text htext)
  · rw [h]
    refine iff_of_true rfl ⟨?_, ?_, ?_, ?_, ?_⟩
    case refine_1 =>
      rintro host (hhost : env.host = some host)
      rw [hhost, Option.getD_some]
    case refine_2 => exact (Environment.portOr_eq_ok_iff.mp hport).1
    case refine_3 => exact (Environment.protocolOr_eq_ok_iff.mp hprotocol).1
    case refine_4 => exact (env.credentials_shows c.auth).1
    case refine_5 => exact (env.credentials_shows c.auth).2

/-- Overriding a configuration again with the same variables changes nothing, whether or not all of
them can be read. Where one cannot, credentials, properties, patience and protocol are as before,
and so is the port unless it was read. An override succeeds exactly if it shows everything that is
set. -/
theorem override_settles (c : Config) (env : Environment) :
    (c.override env).1.override env = c.override env ∧
    (∀ cause, (c.override env).2 = .error cause →
      ∃ host port, (c.override env).1 = { c with host, port } ∧
        (port ≠ c.port → ∃ text ∈ env.port, portOfText? text = some port)) ∧
    ((c.override env).2 = .ok () ↔ (c.override env).1.Shows env) :=
  ⟨override_of_overridden c env, fun _ => override_eq_error, override_eq_ok_iff c env⟩

/-- The port is read, and then the protocol is not. -/
def halfReadable : Environment where
  host := some "ksqldb"
  port := some "+9000"
  protocol := some "ftp"
  username := some "eve"

theorem separated_override_settles :
    (separated.override halfReadable).2 = .error (.unknownProtocol "ftp") ∧
      (separated.override halfReadable).1 = { separated with host := "ksqldb", port := 9000 } ∧
      (separated.override halfReadable).1.override halfReadable =
        separated.override halfReadable ∧
      (∃ host port, (separated.override halfReadable).1 = { separated with host, port } ∧
        (port ≠ separated.port →
          ∃ text ∈ halfReadable.port, portOfText? text = some port)) := by
  obtain ⟨hagain, hkept, -⟩ := override_settles separated halfReadable
  have hport : halfReadable.portOr separated.port = .ok 9000 := by decide
  have hname : "ftp".map Char.toLower = "ftp" :=
    String.toList_injective (String.toList_map.trans (by decide))
  have hprotocol : halfReadable.protocolOr separated.protocol =
      .error (.unknownProtocol "ftp") := by
    refine Environment.protocolOr_eq_error_iff.mpr ⟨"ftp", rfl, ?_⟩
    rw [Protocol.ofText, hname]
    rfl
  have hrun : separated.override halfReadable =
      ({ separated with host := "ksqldb", port := 9000 }, .error (.unknownProtocol "ftp")) := by
    simp only [override, hport, hprotocol]
    rfl
  have herror := congrArg Prod.snd hrun
  exact ⟨herror, congrArg Prod.fst hrun, hagain, hkept _ herror⟩

end Config

end StreamSql
