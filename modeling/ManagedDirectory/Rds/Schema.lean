import ManagedDirectory.Lib.ForeignKeys
import ManagedDirectory.Rds.Records

/-!
# RDS: foreign keys to the devices

The tables that refer to `managed_devices`, directly or through other tables, with their foreign
keys as the migrations leave them (`foreignKeys`). Keys to operator accounts are left out: no device
brings them down.

`guards` says what the deletion of a device runs into: everything below `managed_devices` cascades,
and only the two tables of RustDrop refer to a device without an action (`refers_noAction_iff`).
-/

namespace ManagedDirectory.Rds

open Lib ForeignKeys

inductive Table where
  | managedDevices
  | deviceCredentials
  | enrollmentSecrets
  | deviceEnrollmentEvents
  | deviceStatusHistory
  | deviceReenrollmentAuthorizations
  | deviceReenrollmentRequests
  | relayAccessLeases
  | deviceActiveSessions
  | deviceActivityEvents
  | chatConversations
  | chatParticipants
  | chatMessages
  | chatMessageReceipts
  | chatMessageSendEvents
  | deviceDebugLogs
  | rustdropRegistrations
  | filedropDrops
  | filedropTransferEvents
  | edgeClientCerts
  | inspectionNetworks
  | inspectionObservations
  | caJobs
  | devicePassports
  deriving DecidableEq

/-! ## Migrations -/

inductive Ddl where
  /-- `CREATE TABLE`, with its columns that have a `REFERENCES`. -/
  | create (table : Table) (columns : List (String × Table × OnDelete))
  /-- `DROP CONSTRAINT` of the key of a column. -/
  | drop (table : Table) (column : String)
  /-- `ADD CONSTRAINT`. -/
  | add (k : ForeignKey Table)

def Ddl.apply (keys : List (ForeignKey Table)) : Ddl → List (ForeignKey Table)
  | .create table columns => keys ++ columns.map fun (column, parent, action) =>
      ⟨table, column, parent, action⟩
  | .drop table column => keys.filter fun k => !(k.table == table && k.column == column)
  | .add k => keys ++ [k]

def migrations : List Ddl := [
  -- 003, 004
  .create .managedDevices [],
  .create .deviceCredentials [("device_id", .managedDevices, .cascade)],
  -- 009
  .create .enrollmentSecrets [],
  .create .deviceEnrollmentEvents [
    ("device_id", .managedDevices, .setNull),
    ("enrollment_secret_id", .enrollmentSecrets, .setNull)],
  -- 011
  .create .deviceStatusHistory [("device_id", .managedDevices, .cascade)],
  -- 017, 017a
  .create .deviceReenrollmentAuthorizations [("device_id", .managedDevices, .cascade)],
  .create .deviceReenrollmentRequests [("device_id", .managedDevices, .cascade)],
  .create .relayAccessLeases [("device_id", .managedDevices, .cascade)],
  -- 018
  .create .deviceActiveSessions [("reporting_device_id", .managedDevices, .cascade)],
  -- 019
  .create .deviceActivityEvents [
    ("device_id", .managedDevices, .cascade),
    ("peer_device_id", .managedDevices, .setNull)],
  -- 026
  .create .chatConversations [("created_by_device_id", .managedDevices, .noAction)],
  .create .chatParticipants [
    ("conversation_id", .chatConversations, .cascade),
    ("device_id", .managedDevices, .cascade)],
  .create .chatMessages [
    ("conversation_id", .chatConversations, .cascade),
    ("sender_device_id", .managedDevices, .noAction)],
  .create .chatMessageReceipts [
    ("message_id", .chatMessages, .cascade),
    ("device_id", .managedDevices, .cascade)],
  -- 028
  .create .chatMessageSendEvents [("sender_device_id", .managedDevices, .cascade)],
  -- 029, 030
  .drop .chatMessages "sender_device_id",
  .add ⟨.chatMessages, "sender_device_id", .managedDevices, .cascade⟩,
  .drop .chatConversations "created_by_device_id",
  .add ⟨.chatConversations, "created_by_device_id", .managedDevices, .cascade⟩,
  -- 031
  .create .deviceDebugLogs [("device_id", .managedDevices, .cascade)],
  -- 034
  .create .rustdropRegistrations [("device_id", .managedDevices, .cascade)],
  .create .filedropDrops [
    ("sender_device_id", .managedDevices, .noAction),
    ("recipient_device_id", .managedDevices, .noAction)],
  -- 039
  .create .filedropTransferEvents [
    ("sender_device_id", .managedDevices, .noAction),
    ("recipient_device_id", .managedDevices, .noAction)],
  -- 041
  .create .edgeClientCerts [("device_id", .managedDevices, .setNull)],
  -- 043
  .create .inspectionNetworks [],
  .create .inspectionObservations [
    ("network_id", .inspectionNetworks, .cascade),
    ("device_id", .managedDevices, .cascade)],
  -- 045
  .create .caJobs [("device_id", .managedDevices, .cascade)],
  .create .devicePassports [("device_id", .managedDevices, .cascade)]]

def foreignKeys : List (ForeignKey Table) := migrations.foldl Ddl.apply []

def deviceTables : List Table :=
  [.deviceCredentials, .deviceStatusHistory, .deviceReenrollmentAuthorizations,
    .deviceReenrollmentRequests, .relayAccessLeases, .deviceActiveSessions, .deviceActivityEvents,
    .chatConversations, .chatParticipants, .chatMessages, .chatMessageReceipts,
    .chatMessageSendEvents, .deviceDebugLogs, .rustdropRegistrations, .inspectionObservations,
    .caJobs, .devicePassports]

theorem guards : Guards foreignKeys .managedDevices deviceTables where
  outside := by decide
  cascade := by decide
  noAction := by decide

def Table.namesParties : Table → Bool
  | .filedropDrops | .filedropTransferEvents => true
  | _ => false

theorem noAction_keys : ∀ k ∈ foreignKeys, k.onDelete = .noAction → k.table.namesParties = true ∧
    k.parent = .managedDevices ∧ (k.column = "sender_device_id" ∨ k.column = "recipient_device_id") := by
  decide

theorem party_keys (t : Table) (ht : t.namesParties = true) :
    ⟨t, "sender_device_id", .managedDevices, .noAction⟩ ∈ foreignKeys ∧
      ⟨t, "recipient_device_id", .managedDevices, .noAction⟩ ∈ foreignKeys := by
  unfold Table.namesParties at ht
  split at ht
  · decide
  · decide
  · cases ht

variable {K V : Type}

/-- The row is a drop or a transfer with the device as its sender or its recipient. -/
def Names (did : K) (r : Row Table K V) : Prop :=
  r.table.namesParties = true ∧
    (("sender_device_id", did) ∈ r.refs ∨ ("recipient_device_id", did) ∈ r.refs)

theorem refers_noAction_iff {did : K} {r : Row Table K V} :
    Refers foreignKeys .noAction r (.managedDevices, did) ↔ Names did r := by
  constructor
  · rintro ⟨k, hk, htable, haction, -, href⟩
    obtain ⟨hparties, -, hcolumn⟩ := noAction_keys k hk haction
    refine ⟨htable ▸ hparties, ?_⟩
    rcases hcolumn with hcolumn | hcolumn <;> rw [hcolumn] at href
    · exact .inl href
    · exact .inr href
  · rintro ⟨hparties, href⟩
    obtain ⟨hsender, hrecipient⟩ := party_keys r.table hparties
    rcases href with href | href
    · exact ⟨_, hsender, rfl, rfl, rfl, href⟩
    · exact ⟨_, hrecipient, rfl, rfl, rfl, href⟩

end ManagedDirectory.Rds
