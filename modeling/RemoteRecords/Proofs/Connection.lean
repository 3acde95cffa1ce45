import Mathlib.Data.List.Basic
import RemoteRecords.Connection
import RemoteRecords.Proofs.Text.Integers

/-!
# Endpoints

A connection has an endpoint when it passes three checks, and the fault of one without is the first
check that it does not pass (`endpoint_eq_ok_iff`, `endpoint_eq_error_iff`). The hostname stands in
the address as it is and may hold colons and slashes, but the digits of a port hold no colon. So the
last colon ends the hostname, and an address determines its schema, hostname and port
(`endpoint_determines`).
-/

namespace RemoteRecords

/-! ## Lists around a mark -/

/-- The last mark splits a list in one way only. -/
theorem append_mark_inj {α : Type} {mark : α} {left right front back : List α}
    (rightFree : mark ∉ right) (backFree : mark ∉ back) :
    left ++ mark :: right = front ++ mark :: back ↔ left = front ∧ right = back := by
  constructor
  · intro same
    rcases List.append_eq_append_iff.1 same with ⟨between, split, rest⟩ | ⟨between, split, rest⟩
    · cases between with
      | nil => exact ⟨by rw [split, List.append_nil], (List.cons.inj rest).2⟩
      | cons other between =>
          have later := (List.cons.inj rest).2
          exact absurd (later ▸ List.mem_append_right _ List.mem_cons_self) rightFree
    · cases between with
      | nil => exact ⟨by rw [split, List.append_nil], (List.cons.inj rest).2.symm⟩
      | cons other between =>
          have later := (List.cons.inj rest).2
          exact absurd (later ▸ List.mem_append_right _ List.mem_cons_self) backFree
  · rintro ⟨rfl, rfl⟩
    rfl

namespace Connection

/-! ## Checks -/

/-- What an endpoint asks of a connection, by the fault of one that falls short of it. -/
def Passes (connection : Connection) : Fault → Prop
  | .schema => connection.schema = "http" ∨ connection.schema = "https"
  | .port => 1 ≤ connection.port ∧ connection.port ≤ 65535
  | .hostname =>
      1 ≤ connection.hostname.utf8ByteSize ∧ connection.hostname.utf8ByteSize ≤ 2048

/-- The checks in their order. -/
def checks : List Fault := [.schema, .port, .hostname]

/-- The connection does not pass this check and passes all before it. -/
def FailsFirst (connection : Connection) (fault : Fault) : Prop :=
  ∃ passed rest, checks = passed ++ fault :: rest ∧
    (∀ earlier ∈ passed, connection.Passes earlier) ∧ ¬ connection.Passes fault

/-- The address that the parts of a connection make. -/
def address (connection : Connection) : String :=
  connection.schema ++ "://" ++ connection.hostname ++ ":" ++ Text.ofNat connection.port ++
    "/jsonrpc"

section Checks

variable (connection : Connection)

theorem not_passes_schema_iff :
    ¬ connection.Passes .schema ↔
      connection.schema ≠ "http" ∧ connection.schema ≠ "https" := by
  rw [Passes, not_or]

theorem not_passes_port_iff :
    ¬ connection.Passes .port ↔ connection.port = 0 ∨ 65535 < connection.port := by
  rw [Passes]
  omega

theorem not_passes_hostname_iff :
    ¬ connection.Passes .hostname ↔
      connection.hostname.isEmpty ∨ 2048 < connection.hostname.utf8ByteSize := by
  rw [Passes, String.isEmpty_iff, ← String.utf8ByteSize_eq_zero_iff]
  omega

end Checks

section Endpoint

variable {connection : Connection}

theorem endpoint_of_passes (passes : ∀ fault, connection.Passes fault) :
    connection.endpoint = .ok connection.address := by
  have known := fun failing => (not_passes_schema_iff connection).2 failing (passes .schema)
  have inRange := fun failing => (not_passes_port_iff connection).2 failing (passes .port)
  have named := fun failing => (not_passes_hostname_iff connection).2 failing (passes .hostname)
  rw [endpoint, if_neg known, if_neg inRange, if_neg named, address]

theorem endpoint_of_failsFirst {fault : Fault} (fails : connection.FailsFirst fault) :
    connection.endpoint = .error fault := by
  obtain ⟨passed, rest, split, passes, falls⟩ := fails
  -- One case for each check that can be the first to fail.
  match passed with
  | [] =>
      cases split
      rw [endpoint, if_pos ((not_passes_schema_iff connection).1 falls)]
  | [_] =>
      cases split
      have known := fun failing =>
        (not_passes_schema_iff connection).2 failing (passes .schema (by simp))
      rw [endpoint, if_neg known, if_pos ((not_passes_port_iff connection).1 falls)]
  | [_, _] =>
      cases split
      have known := fun failing =>
        (not_passes_schema_iff connection).2 failing (passes .schema (by simp))
      have inRange := fun failing =>
        (not_passes_port_iff connection).2 failing (passes .port (by simp))
      rw [endpoint, if_neg known, if_neg inRange,
        if_pos ((not_passes_hostname_iff connection).1 falls)]
  | _ :: _ :: _ :: _ => simp [checks] at split

theorem passes_or_failsFirst (connection : Connection) :
    (∀ fault, connection.Passes fault) ∨ ∃ fault, connection.FailsFirst fault := by
  by_cases schema : connection.Passes .schema
  · by_cases port : connection.Passes .port
    · by_cases hostname : connection.Passes .hostname
      · refine .inl fun fault => ?_
        cases fault with
        | schema => exact schema
        | port => exact port
        | hostname => exact hostname
      · exact .inr ⟨.hostname, [.schema, .port], [], rfl, by simp [schema, port], hostname⟩
    · exact .inr ⟨.port, [.schema], [.hostname], rfl, by simp [schema], port⟩
  · exact .inr ⟨.schema, [], [.port, .hostname], rfl, by simp, schema⟩

theorem endpoint_eq_ok_iff {url : String} :
    connection.endpoint = .ok url ↔
      (∀ fault, connection.Passes fault) ∧ url = connection.address := by
  constructor
  · intro located
    rcases passes_or_failsFirst connection with passes | ⟨fault, fails⟩
    · rw [endpoint_of_passes passes] at located
      exact ⟨passes, (Except.ok.inj located).symm⟩
    · rw [endpoint_of_failsFirst fails] at located
      cases located
  · rintro ⟨passes, rfl⟩
    exact endpoint_of_passes passes

theorem endpoint_eq_error_iff {fault : Fault} :
    connection.endpoint = .error fault ↔ connection.FailsFirst fault := by
  constructor
  · intro refused
    rcases passes_or_failsFirst connection with passes | ⟨first, fails⟩
    · rw [endpoint_of_passes passes] at refused
      cases refused
    · rw [endpoint_of_failsFirst fails] at refused
      exact Except.error.inj refused ▸ fails
  · exact endpoint_of_failsFirst

end Endpoint

/-! ## Addresses -/

theorem toList_address (connection : Connection) :
    connection.address.toList =
      connection.schema.toList ++ ':' ::
        ("//".toList ++ connection.hostname.toList ++
          ':' :: (Text.digits connection.port ++ "/jsonrpc".toList)) := by
  simp [address, Text.ofNat]

theorem schema_inj {first second : Connection} {left right : List Char}
    (known : first.Passes .schema) (alsoKnown : second.Passes .schema)
    (same : first.schema.toList ++ ':' :: left = second.schema.toList ++ ':' :: right) :
    first.schema = second.schema ∧ left = right := by
  rcases known with plain | secure <;> rcases alsoKnown with alsoPlain | alsoSecure
  · rw [plain, alsoPlain] at same ⊢
    exact ⟨rfl, (List.cons.inj (List.append_cancel_left same)).2⟩
  -- Where one schema ends with a colon, the other one goes on with a letter.
  · rw [plain, alsoSecure] at same
    simp at same
  · rw [secure, alsoPlain] at same
    simp at same
  · rw [secure, alsoSecure] at same ⊢
    exact ⟨rfl, (List.cons.inj (List.append_cancel_left same)).2⟩

theorem colon_not_mem_ending (connection : Connection) :
    ':' ∉ Text.digits connection.port ++ "/jsonrpc".toList := by
  intro member
  rcases List.mem_append.1 member with digit | letter
  · exact Text.colon_not_mem_digits _ digit
  · exact absurd letter (by decide)

/-- Connections with known schemas have one address only if they agree in its parts. -/
theorem address_inj {first second : Connection} (known : first.Passes .schema)
    (alsoKnown : second.Passes .schema) :
    first.address = second.address ↔
      first.schema = second.schema ∧ first.hostname = second.hostname ∧
        first.port = second.port := by
  constructor
  · intro same
    have chars := congrArg String.toList same
    rw [toList_address, toList_address] at chars
    obtain ⟨schema, rest⟩ := schema_inj known alsoKnown chars
    obtain ⟨hostname, port⟩ :=
      (append_mark_inj first.colon_not_mem_ending second.colon_not_mem_ending).1 rest
    exact ⟨schema, String.toList_inj.1 (List.append_cancel_left hostname),
      Text.digits_inj.1 (List.append_cancel_right port)⟩
  · rintro ⟨schema, hostname, port⟩
    rw [address, address, schema, hostname, port]

/-- A connection has an endpoint exactly when it passes every check, and otherwise the fault is the
first check that it does not pass. Of two connections with endpoints both have the same one exactly
when they have the same schema, hostname and port. -/
theorem endpoint_determines (connection : Connection) :
    ((∃ url, connection.endpoint = .ok url) ↔ ∀ fault, connection.Passes fault) ∧
      (∀ fault, connection.endpoint = .error fault ↔ connection.FailsFirst fault) ∧
      ∀ (other : Connection) (url otherUrl : String),
        connection.endpoint = .ok url → other.endpoint = .ok otherUrl →
          (url = otherUrl ↔ connection.schema = other.schema ∧
            connection.hostname = other.hostname ∧ connection.port = other.port) := by
  refine ⟨?_, fun fault => endpoint_eq_error_iff, ?_⟩
  · constructor
    · rintro ⟨url, located⟩
      exact (endpoint_eq_ok_iff.1 located).1
    · intro passes
      exact ⟨connection.address, endpoint_of_passes passes⟩
  · intro other url otherUrl located otherLocated
    obtain ⟨passes, rfl⟩ := endpoint_eq_ok_iff.1 located
    obtain ⟨otherPasses, rfl⟩ := endpoint_eq_ok_iff.1 otherLocated
    exact address_inj (passes .schema) (otherPasses .schema)

/-- A hostname that looks like an address of its own. -/
theorem endpoint_determines_hostile_hostname :
    let connection : Connection := ⟨"erp:80/jsonrpc", 8069, "odoo", "admin", "admin", "http"⟩
    let other : Connection := ⟨"erp", 80, "odoo", "admin", "admin", "http"⟩
    connection.endpoint = .ok "http://erp:80/jsonrpc:8069/jsonrpc" ∧
      other.endpoint = .ok "http://erp:80/jsonrpc" ∧
      (∀ fault, connection.Passes fault) ∧
      ("http://erp:80/jsonrpc:8069/jsonrpc" = "http://erp:80/jsonrpc" ↔
        connection.schema = other.schema ∧ connection.hostname = other.hostname ∧
          connection.port = other.port) := by
  intro connection other
  have located : connection.endpoint = .ok "http://erp:80/jsonrpc:8069/jsonrpc" := by
    decide +kernel
  have otherLocated : other.endpoint = .ok "http://erp:80/jsonrpc" := by decide +kernel
  obtain ⟨succeeds, -, determines⟩ := endpoint_determines connection
  exact ⟨located, otherLocated, succeeds.1 ⟨_, located⟩,
    determines other _ _ located otherLocated⟩

end Connection

end RemoteRecords
