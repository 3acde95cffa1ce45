import RemoteRecords.Proofs.Connection
import RemoteRecords.Proofs.Settings.Integers
import RemoteRecords.Proofs.Settings.Winners

/-!
# The port of an endpoint

Where the winning port denotes an integer, whatever its size, an endpoint has this integer as its
port, and it is between 1 and 65535 (`endpoint_port_of_denotes`).
-/

namespace RemoteRecords

/-! ## Endpoints -/

theorem Connection.endpoint_eq_ok {connection : Connection} {url : String}
    (located : connection.endpoint = .ok url) :
    0 < connection.port ∧ connection.port ≤ 65535 ∧
      url = connection.schema ++ "://" ++ connection.hostname ++ ":" ++
        Text.ofNat connection.port ++ "/jsonrpc" := by
  obtain ⟨passes, rfl⟩ := Connection.endpoint_eq_ok_iff.1 located
  exact ⟨(passes .port).1, (passes .port).2, rfl⟩

theorem Text.ofInt_natCast (number : Nat) : Text.ofInt number = Text.ofNat number := by
  rw [Text.ofInt, Text.intChars, if_neg (by omega), Int.natAbs_natCast, Text.ofNat]

namespace Settings

/-- An integer of whatever size that wins as the port is the port of the endpoint, if there is an
endpoint, and then it is between 1 and 65535. This holds of settings files in all formats. -/
theorem endpoint_port_of_denotes {formats : List Format} {files : FileTree} {path : Option Path}
    {sources : Sources} {n : Int} {connection : Connection} {url : String}
    (read : entriesAt formats files path = .ok sources.file)
    (denotes : (sources.winner .port).value.Denotes n)
    (loaded : load files sources.environment path sources.overrides formats = .ok connection)
    (located : connection.endpoint = .ok url) :
    1 ≤ n ∧ n ≤ 65535 ∧
      url = connection.schema ++ "://" ++ connection.hostname ++ ":" ++ Text.ofInt n ++
        "/jsonrpc" := by
  obtain ⟨positive, bounded, address⟩ := Connection.endpoint_eq_ok located
  have converts := converts_winner_of_load read loaded .port
  have same : n = connection.port := eq_of_denotes denotes positive converts
  refine ⟨by omega, by omega, ?_⟩
  rw [address, same, Text.ofInt_natCast]

/-- Ports of a YAML file and of a file in a further format. -/
theorem endpoint_port_of_denotes_two_formats :
    let files : FileTree :=
      ⟨["work"], [(["work", "config.yml"], Bytes.ofText "hostname: erp\nport: 0x1F90\n")], []⟩
    let path := some (Path.ofText "config.yml")
    let sources : Sources :=
      ⟨Overrides.none, [("ODOOQ_SCHEMA", "https"), ("ODOOQ_EXTRA.KEY", "me")],
        [("hostname", ⟨.string "erp", some (.file "config.yml")⟩),
          ("port", ⟨.int 8080, some (.file "config.yml")⟩)]⟩
    let connection : Connection := ⟨"erp", 8080, "odoo", "admin", "admin", "https"⟩
    let toml : Format :=
      ⟨"toml", fun found =>
        if found = "port = 443\n" then some (.map [("port", .int 443)]) else none⟩
    let otherFiles : FileTree :=
      ⟨["work"], [(["work", "settings.toml"], Bytes.ofText "port = 443\n")], []⟩
    let otherPath := some (Path.ofText "settings.toml")
    let otherSources : Sources :=
      ⟨Overrides.none, [], [("port", ⟨.int 443, some (.file "settings.toml")⟩)]⟩
    let other : Connection := ⟨"localhost", 443, "odoo", "admin", "admin", "http"⟩
    (entriesAt standardFormats files path = .ok sources.file ∧
      (sources.winner .port).value.Denotes 8080 ∧
      load files sources.environment path sources.overrides = .ok connection ∧
      connection.endpoint = .ok "https://erp:8080/jsonrpc" ∧
      (1 : Int) ≤ 8080 ∧ (8080 : Int) ≤ 65535 ∧
      "https://erp:8080/jsonrpc" =
        connection.schema ++ "://" ++ connection.hostname ++ ":" ++ Text.ofInt 8080 ++
          "/jsonrpc") ∧
    entriesAt [toml] otherFiles otherPath = .ok otherSources.file ∧
      (otherSources.winner .port).value.Denotes 443 ∧
      load otherFiles otherSources.environment otherPath otherSources.overrides [toml] =
        .ok other ∧
      other.endpoint = .ok "http://localhost:443/jsonrpc" ∧
      (1 : Int) ≤ 443 ∧ (443 : Int) ≤ 65535 ∧
      "http://localhost:443/jsonrpc" =
        other.schema ++ "://" ++ other.hostname ++ ":" ++ Text.ofInt 443 ++ "/jsonrpc" := by
  intro files path sources connection toml otherFiles otherPath otherSources other
  have read : entriesAt standardFormats files path = .ok sources.file := by decide +kernel
  have spelled : Yaml.integer? "0x1F90".toList = some 8080 := by decide
  have marked : Yaml.Node.markedInteger? "0x1F90".toList = some 8080 := by decide
  have held : ofNode? (Yaml.Node.ofPlain "0x1F90") = some (.other (.int 8080)) := by
    rw [Yaml.Node.ofPlain, marked]
    rfl
  have winner : sources.winner .port = ⟨.int 8080, some (.file "config.yml")⟩ := by
    decide +kernel
  have denotes : (sources.winner .port).value.Denotes 8080 := by
    rw [winner]
    exact .plain spelled held
  have loaded : load files sources.environment path sources.overrides = .ok connection := by
    decide +kernel
  have located : connection.endpoint = .ok "https://erp:8080/jsonrpc" := by decide +kernel
  have otherRead : entriesAt [toml] otherFiles otherPath = .ok otherSources.file := by
    decide +kernel
  have otherWinner : otherSources.winner .port = ⟨.int 443, some (.file "settings.toml")⟩ := by
    decide +kernel
  have otherDenotes : (otherSources.winner .port).value.Denotes 443 := by
    rw [otherWinner]
    exact .whole 443
  have otherLoaded : load otherFiles otherSources.environment otherPath otherSources.overrides
      [toml] = .ok other := by decide +kernel
  have otherLocated : other.endpoint = .ok "http://localhost:443/jsonrpc" := by decide +kernel
  exact ⟨⟨read, denotes, loaded, located, endpoint_port_of_denotes read denotes loaded located⟩,
    otherRead, otherDenotes, otherLoaded, otherLocated,
    endpoint_port_of_denotes otherRead otherDenotes otherLoaded otherLocated⟩

/-- A port of more than 32 bits is refused, not cut off. -/
example : Value.toNumber (.int 4294975376) = .error (.tooLarge 4294975376) := by decide

end Settings

end RemoteRecords
