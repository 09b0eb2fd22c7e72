import ManagedDirectory.Signer.State

/-!
# Payloads as RDS queues them

The objects `approve_device`, `ca_issue_all`, `_sec8_queue_device_request` and
`change_device_status` put into `ca_jobs`, and that the signer reads them as meant. A signed
request carries two fields the signer does not know: the key and the protection RDS expects back.
-/

namespace ManagedDirectory.CaSigner

open Codec Lib Passport

def jsonInt (z : Int64) : Json := (Printable.int z.toInt).toJson

def DeviceIn.payload (d : DeviceIn) : Json :=
  jsonObj [("rid", jsonStr d.rid), ("did", jsonStr d.did), ("name", jsonStr d.name),
    ("idk", jsonStr d.idk), ("idk_alg", jsonStr d.idkAlg), ("rdk", jsonStr d.rdk),
    ("prot", jsonStr d.prot)]

def Approver.payload (a : Approver) : Json :=
  jsonObj [("name", jsonStr a.name), ("role", jsonStr a.role), ("source", jsonStr a.source)]

def IssueJob.payload (j : IssueJob) : Json :=
  jsonObj [("device", j.device.payload), ("approver", j.approver.payload),
    ("lifetime_days", jsonInt j.lifetimeDays), ("reason", jsonStr j.reason)]

def SignedJob.payload (j : SignedJob) (expectedIdk expectedProt : String) : Json :=
  jsonObj [("rid", jsonStr j.rid), ("did", jsonStr j.did), ("request", jsonStr j.request),
    ("lifetime_days", jsonInt j.lifetimeDays), ("expected_idk", jsonStr expectedIdk),
    ("expected_prot", jsonStr expectedProt)]

def RevokeJob.payload (j : RevokeJob) : Json :=
  jsonObj [("rid", jsonStr j.rid), ("did", jsonStr j.did), ("reason", jsonStr j.reason)]

/-! ## What the signer reads -/

@[simp] theorem required_some {α : Type} (read : Json → Option α) (j : Json) :
    required read (some j) = read j := rfl

@[simp] theorem orDefault_some {α : Type} (a : α) (read : Json → Option α) (j : Json) :
    orDefault a read (some j) = read j := rfl

@[simp] theorem asI64_jsonInt (z : Int64) : asI64 (jsonInt z) = some z := asI64_int z

@[simp] theorem decodeDeviceIn_payload (d : DeviceIn) : decodeDeviceIn d.payload = some d := by
  rw [decodeDeviceIn, DeviceIn.payload, structFields_jsonObj (by simp)]
  simp [List.find?]

@[simp] theorem decodeApprover_payload (a : Approver) : decodeApprover a.payload = some a := by
  rw [decodeApprover, Approver.payload, structFields_jsonObj (by simp)]
  simp [List.find?]

@[simp] theorem decodeIssueJob_payload (j : IssueJob) : decodeIssueJob j.payload = some j := by
  rw [decodeIssueJob, IssueJob.payload, structFields_jsonObj (by simp)]
  simp [List.find?]

@[simp] theorem decodeSignedJob_payload (j : SignedJob) (expectedIdk expectedProt : String) :
    decodeSignedJob (j.payload expectedIdk expectedProt) = some j := by
  rw [decodeSignedJob, SignedJob.payload, structFields_jsonObj (by simp)]
  simp [List.find?]

@[simp] theorem decodeRevokeJob_payload (j : RevokeJob) : decodeRevokeJob j.payload = some j := by
  rw [decodeRevokeJob, RevokeJob.payload, structFields_jsonObj (by simp)]
  simp [List.find?]

end ManagedDirectory.CaSigner
