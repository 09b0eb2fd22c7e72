import ManagedDirectory.Signer.Custody

/-!
# The standing of a device

Which jobs move a device between approved and not approved. A record becomes approved only by an
issue job for it (`approved_of_effect`); a signed request for a device that is not approved changes
nothing (`process_unapproved`); a revocation is always answered and issues nothing
(`process_revoke`).
-/

namespace ManagedDirectory.CaSigner

open Codec Lib Passport Proc

variable {C : Crypto} {job : Job} {env : Env} {s s' : Signer} {res : Option JobResult} {k : String}

def State.Approved (st : State) (k : String) : Prop :=
  ∃ d, st.devices k = some d ∧ d.status = .approved

theorem Effect.added (h : Effect C job env s res s') {d' : Device}
    (hnone : s.state.devices k = none) (hd' : s'.state.devices k = some d') :
    ∃ j, job.kind = "issue" ∧ decodeIssueJob job.payload = some j ∧ j.device.did = k ∧
      d'.idk = j.device.idk ∧ d'.status = .approved := by
  have hmodify : ∀ {st : State} {did : String} {f : Device → Device},
      st.devices k = none → (st.modify did f).devices k ≠ some d' := by
    intro st did f hst
    by_cases hk : k = did
    · subst hk
      simp [hst]
    · simp [State.modify_devices_of_ne _ _ hk, hst]
  have hnoted : ∀ {did nonce : String}, (s.noted did nonce env.nonce).devices k = none := by
    intro did nonce
    rw [Signer.noted, State.nonceSeen_devices, hnone]
  have hissue : ∀ {j : IssueJob} {x : Device} {t : Int64},
      x.onFile = (issueRecord j (s.state.devices j.device.did) t).onFile →
      s'.state = s.state.insert j.device.did x →
      j.device.did = k ∧ d'.idk = j.device.idk ∧ d'.status = .approved := by
    intro j x t hx hstate
    by_cases hk : k = j.device.did
    · subst hk
      rw [hstate, State.insert_devices_same, Option.some_inj] at hd'
      subst hd'
      exact ⟨rfl, onFile_idk hx, onFile_status hx⟩
    · rw [hstate, State.insert_devices_of_ne _ _ hk, hnone] at hd'
      cases hd'
  cases h with
  | quiet _ hq =>
    have hfile := hq.onFile k
    rw [hnone, hd'] at hfile
    cases hfile
  | issued hkind hjob hdone =>
    exact ⟨_, hkind, hjob, hissue (Device.onFile_issuedAt _ _) hdone.state⟩
  | issueHalf _ hkind hjob hhalf =>
    obtain ⟨x, hx, hstate⟩ := hhalf.state
    exact ⟨_, hkind, hjob, hissue hx hstate⟩
  | renewed _ _ hdone =>
    rw [hdone.state] at hd'
    exact absurd hd' (hmodify hnoted)
  | keyUpdated _ _ hdone =>
    rw [hdone.state] at hd'
    exact absurd hd' (hmodify hnoted)
  | keyUpdateHalf _ _ _ hhalf =>
    obtain ⟨f, -, hstate⟩ := hhalf.state
    rw [hstate] at hd'
    exact absurd hd' (hmodify hnoted)
  | revoked _ _ hdone =>
    rw [hdone.state] at hd'
    exact absurd hd' (hmodify hnone)
  | revokeHalf _ _ _ hhalf =>
    rw [hhalf.state] at hd'
    exact absurd hd' (hmodify hnone)

/-- **Only an issue job for the device approves it.** -/
theorem approved_of_effect (h : Effect C job env s res s') (happroved : s'.state.Approved k) :
    s.state.Approved k ∨
      ∃ j, job.kind = "issue" ∧ decodeIssueJob job.payload = some j ∧ j.device.did = k := by
  obtain ⟨d', hd', hstatus⟩ := happroved
  cases hd : s.state.devices k with
  | none =>
    obtain ⟨j, hkind, hjob, hdid, -⟩ := h.added hd hd'
    exact .inr ⟨j, hkind, hjob, hdid⟩
  | some d =>
    obtain ⟨x, hx, hchange⟩ := h.change hd
    obtain rfl := Option.some.inj (hd'.symm.trans hx)
    cases hchange with
    | kept hfile => exact .inl ⟨d, hd, (onFile_status hfile).symm.trans hstatus⟩
    | issued hkind hjob hdid => exact .inr ⟨_, hkind, hjob, hdid⟩
    | rekeyed _ _ _ _ _ hfile => exact .inl ⟨d, hd, (onFile_status hfile).symm.trans hstatus⟩
    | revoked _ _ _ heq =>
      subst heq
      cases hstatus

/-! ## Jobs that issue nothing -/

/-- **A signed request for a device that is not approved** is refused and changes nothing. -/
theorem process_unapproved {j : SignedJob} (hkind : job.kind = "renew" ∨ job.kind = "keyupdate")
    (hjob : decodeSignedJob job.payload = some j) (hnot : ¬ s.state.Approved j.did) :
    ∃ r, (process C job env s).1 = some r ∧ r.passport = none ∧
      (process C job env s).2.state = s.state := by
  refine spec_process (R := fun res s' => ∃ r, res = some r ∧ r.passport = none ∧
    s'.state = s.state) ?_
  have hrefused : ∀ {Q : Device → Signer → Prop}, spec (knownApproved j.rid j.did) s Q fun e s' =>
      Settles job (fun res s' => ∃ r, res = some r ∧ r.passport = none ∧ s'.state = s.state) s' e :=
    spec_knownApproved (fun _ h => absurd ⟨_, h.found, h.status⟩ hnot)
      fun _ _ _ => ⟨_, rfl, rfl, rfl⟩
  rcases hkind with hkind | hkind
  · rw [handle_renew hkind hjob, handleRenew, spec_bind]
    exact hrefused
  · rw [handle_keyUpdate hkind hjob, handleKeyUpdate, spec_bind]
    exact hrefused

/-- **A revocation is answered, without a passport.** -/
theorem process_revoke (hkind : job.kind = "revoke") :
    ∃ r, (process C job env s).1 = some r ∧ r.passport = none := by
  refine spec_process (R := fun res _ => ∃ r, res = some r ∧ r.passport = none)
    (spec_handle (fun _ _ _ => ⟨_, rfl, rfl⟩) ?_ ?_ ?_ fun j _ _ => ?_)
  · simp [hkind]
  · simp [hkind]
  · simp [hkind]
  · simp only [handleRevoke, spec_bind, spec_read, spec_check, spec_modifyDevice, spec_append,
      spec_save, spec_pure]
    exact ⟨fun _ _ _ => ⟨_, rfl, rfl⟩, fun _ => ⟨fun _ _ _ _ => ⟨_, rfl, rfl⟩,
      fun _ => ⟨fun _ _ _ _ => ⟨_, rfl, rfl⟩, fun _ => ⟨_, rfl, rfl⟩⟩⟩⟩

end ManagedDirectory.CaSigner
