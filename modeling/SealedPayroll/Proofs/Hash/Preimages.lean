import SealedPayroll.Audit.ViewKey
import SealedPayroll.Commitment.Scheme
import SealedPayroll.Payment.Digest
import SealedPayroll.Proofs.Bytes.Encoding

/-!
# Preimages are told apart

Four things are hashed: openings of commitments, recipients, one-time values of
payments, and what view keys are named after. All but the openings begin with a
domain of their own, and a name stands between parts of a fixed width, so a
preimage tells what was hashed (`Hashed.told_apart`). Digests tell as much
wherever SHA-256 does not collide.

An opening has no domain. Its first sixteen bytes are an amount and the rest is
free, so nothing is said about an opening and a preimage of another kind.
-/

namespace SealedPayroll

-- ---------------------------------------------------------------------------
-- Results and parts
-- ---------------------------------------------------------------------------

/-- A computation that may fail gives a result iff its parts do. -/
theorem Fault.bind_eq_ok {α β : Type} {result : Except Fault α} {next : α → Except Fault β}
    {b : β} : result >>= next = .ok b ↔ ∃ a, result = .ok a ∧ next a = .ok b := by
  cases result <;> simp [bind, Except.bind]

/-- Parts of known width around a part of any width leave no choice where it begins and ends,
whatever separators occur in it. -/
theorem Bytes.enclosed_inj {front front' middle middle' back back' : Bytes}
    (hf : front.length = front'.length) (hb : back.length = back'.length)
    (h : front ++ middle ++ 0 :: back = front' ++ middle' ++ 0 :: back') :
    front = front' ∧ middle = middle' ∧ back = back' := by
  have separated : (0 :: back).length = (0 :: back').length := congrArg (· + 1) hb
  obtain ⟨before, after⟩ := List.append_inj' h separated
  obtain ⟨fronts, middles⟩ := List.append_inj before hf
  exact ⟨fronts, middles, List.tail_eq_of_cons_eq after⟩

/-- What a digest is taken of. -/
inductive Hashed where
  | opening (amount : Int) (blinding : Bytes)
  | recipient (employee : Principal)
  | nullifier (blinding : Bytes) (employee : Principal) (period : Int)
  | viewKey (company : Int) (auditor : Principal) (nonce : Int)

namespace Hashed

/-- The bytes that are hashed. -/
def preimage : Hashed → Except Fault Bytes
  | opening amount blinding => CommitmentScheme.preimage amount blinding
  | recipient employee => recipientPreimage employee
  | nullifier blinding employee period => nullifierPreimage blinding employee period
  | viewKey company auditor nonce => ViewKey.idPreimage company auditor nonce

def viewKeyDomain : Bytes := Bytes.ofText "zk-payroll/view-key/v1"

/-- The domain that the preimage begins with. -/
def domain? : Hashed → Option Bytes
  | opening .. => none
  | recipient _ => some recipientDomain
  | nullifier .. => some nullifierDomain
  | viewKey .. => some viewKeyDomain

/-- Two preimages of one digest. -/
def Collide (first second : Hashed) : Prop :=
  ∃ bytes others, first.preimage = .ok bytes ∧ second.preimage = .ok others ∧ bytes ≠ others ∧
    Sha256.digest bytes = Sha256.digest others

variable {first second : Hashed} {bytes others blinding : Bytes} {employee auditor : Principal}
  {amount period company nonce : Int}

-- ---------------------------------------------------------------------------
-- The preimages
-- ---------------------------------------------------------------------------

theorem preimage_opening :
    (opening amount blinding).preimage = .ok bytes ↔ CommitmentScheme.fits amount = true ∧
      blinding.length = 32 ∧ Bytes.littleEndian 16 amount.toNat ++ blinding = bytes := by
  rw [preimage, CommitmentScheme.preimage]
  split
  · simp_all
  · split
    · simp_all
    · simp_all

theorem preimage_recipient :
    (recipient employee).preimage = .ok bytes ↔
      employee ≠ "" ∧ recipientDomain ++ 0 :: Bytes.ofText employee = bytes := by
  rw [preimage, recipientPreimage]
  split
  · simp_all
  · simp_all

theorem preimage_nullifier :
    (nullifier blinding employee period).preimage = .ok bytes ↔
      blinding.length = 32 ∧ ∃ periodBytes, Bytes.encodeBigEndian 8 period = .ok periodBytes ∧
        nullifierDomain ++ 0 :: blinding ++ Bytes.ofText employee ++ 0 :: periodBytes = bytes := by
  have written {encoded : Bytes} (h : Bytes.encodeBigEndian 8 period = .ok encoded) :
      ¬ period < 0 := by
    obtain ⟨m, rfl, -⟩ := Bytes.encodeBigEndian_eq_ok.mp h
    exact Int.not_lt.mpr (Int.natCast_nonneg m)
  rw [preimage, nullifierPreimage]
  by_cases sized : blinding.length = 32
  · rw [if_neg (not_not_intro sized)]
    by_cases negative : period < 0
    · rw [if_pos negative]
      exact ⟨fun h => (nomatch h), fun ⟨_, _, encoded, _⟩ => absurd negative (written encoded)⟩
    · rw [if_neg negative, Fault.bind_eq_ok]
      simp [sized, pure, Except.pure]
  · rw [if_pos sized]
    exact ⟨fun h => (nomatch h), fun h => absurd h.1 sized⟩

theorem preimage_viewKey :
    (viewKey company auditor nonce).preimage = .ok bytes ↔
      ∃ companyBytes, Bytes.encodeBigEndian 8 company = .ok companyBytes ∧
        ∃ nonceBytes, Bytes.encodeBigEndian 8 nonce = .ok nonceBytes ∧
          viewKeyDomain ++ 0 :: companyBytes ++ Bytes.ofText auditor ++ 0 :: nonceBytes =
            bytes := by
  simp only [preimage, ViewKey.idPreimage, Fault.bind_eq_ok, viewKeyDomain, pure, Except.pure,
    Except.ok.injEq]

-- ---------------------------------------------------------------------------
-- Preimages of one kind
-- ---------------------------------------------------------------------------

theorem natCast_of_fits (h : CommitmentScheme.fits amount = true) :
    ∃ n : Nat, amount = n ∧ n < Bytes.capacity 16 := by
  rw [CommitmentScheme.fits, Bool.and_eq_true, decide_eq_true_eq, decide_eq_true_eq] at h
  obtain ⟨n, rfl⟩ := Int.eq_ofNat_of_zero_le h.1
  exact ⟨n, rfl, Int.ofNat_lt.mp (Int.lt_of_le_of_lt h.2 (by decide))⟩

theorem opening_inj {amount' : Int} {blinding' : Bytes}
    (h : (opening amount blinding).preimage = .ok bytes)
    (h' : (opening amount' blinding').preimage = .ok bytes) :
    amount = amount' ∧ blinding = blinding' := by
  obtain ⟨fits, -, rfl⟩ := preimage_opening.mp h
  obtain ⟨fits', -, same⟩ := preimage_opening.mp h'
  obtain ⟨n, rfl, narrow⟩ := natCast_of_fits fits
  obtain ⟨m, rfl, narrow'⟩ := natCast_of_fits fits'
  obtain ⟨amounts, blindings⟩ := List.append_inj same (by simp)
  rw [Int.toNat_natCast, Int.toNat_natCast, Bytes.littleEndian_inj narrow' narrow] at amounts
  exact ⟨congrArg _ amounts.symm, blindings.symm⟩

theorem recipient_inj {employee' : Principal} (h : (recipient employee).preimage = .ok bytes)
    (h' : (recipient employee').preimage = .ok bytes) : employee = employee' := by
  obtain ⟨-, rfl⟩ := preimage_recipient.mp h
  obtain ⟨-, same⟩ := preimage_recipient.mp h'
  exact Bytes.ofText_injective (List.tail_eq_of_cons_eq (List.append_cancel_left same)).symm

theorem nullifier_inj {blinding' : Bytes} {employee' : Principal} {period' : Int}
    (h : (nullifier blinding employee period).preimage = .ok bytes)
    (h' : (nullifier blinding' employee' period').preimage = .ok bytes) :
    blinding = blinding' ∧ employee = employee' ∧ period = period' := by
  obtain ⟨sized, periodBytes, encoded, rfl⟩ := preimage_nullifier.mp h
  obtain ⟨sized', periodBytes', encoded', same⟩ := preimage_nullifier.mp h'
  obtain ⟨blindings, employees, rfl⟩ := Bytes.enclosed_inj (by simp [sized, sized'])
    (by rw [Bytes.length_encodeBigEndian encoded, Bytes.length_encodeBigEndian encoded']) same.symm
  exact ⟨List.tail_eq_of_cons_eq (List.append_cancel_left blindings),
    Bytes.ofText_injective employees, Bytes.encodeBigEndian_inj encoded encoded'⟩

theorem viewKey_inj {company' : Int} {auditor' : Principal} {nonce' : Int}
    (h : (viewKey company auditor nonce).preimage = .ok bytes)
    (h' : (viewKey company' auditor' nonce').preimage = .ok bytes) :
    company = company' ∧ auditor = auditor' ∧ nonce = nonce' := by
  obtain ⟨companyBytes, hc, nonceBytes, hn, rfl⟩ := preimage_viewKey.mp h
  obtain ⟨companyBytes', hc', nonceBytes', hn', same⟩ := preimage_viewKey.mp h'
  have widths : companyBytes.length = companyBytes'.length := by
    rw [Bytes.length_encodeBigEndian hc, Bytes.length_encodeBigEndian hc']
  obtain ⟨companies, auditors, rfl⟩ := Bytes.enclosed_inj (by simp [widths])
    (by rw [Bytes.length_encodeBigEndian hn, Bytes.length_encodeBigEndian hn']) same.symm
  obtain rfl := List.tail_eq_of_cons_eq (List.append_cancel_left companies)
  exact ⟨Bytes.encodeBigEndian_inj hc hc', Bytes.ofText_injective auditors,
    Bytes.encodeBigEndian_inj hn hn'⟩

-- ---------------------------------------------------------------------------
-- Domains
-- ---------------------------------------------------------------------------

theorem domain_begins {domain : Bytes} (hd : first.domain? = some domain)
    (h : first.preimage = .ok bytes) : domain <+: bytes := by
  cases first with
  | opening => cases hd
  | recipient employee =>
    cases hd
    obtain ⟨-, rfl⟩ := preimage_recipient.mp h
    exact List.prefix_append _ _
  | nullifier blinding employee period =>
    cases hd
    obtain ⟨-, _, -, rfl⟩ := preimage_nullifier.mp h
    simp only [List.append_assoc]
    exact List.prefix_append _ _
  | viewKey company auditor nonce =>
    cases hd
    obtain ⟨_, -, _, -, rfl⟩ := preimage_viewKey.mp h
    simp only [List.append_assoc]
    exact List.prefix_append _ _

/-- No domain begins with another one. -/
theorem domains_apart :
    ∀ domain ∈ [recipientDomain, nullifierDomain, viewKeyDomain],
      ∀ other ∈ [recipientDomain, nullifierDomain, viewKeyDomain],
        domain <+: other → domain = other := by
  decide +kernel

theorem domain_mem {domain : Bytes} (hd : first.domain? = some domain) :
    domain ∈ [recipientDomain, nullifierDomain, viewKeyDomain] := by
  cases first <;> cases hd <;> simp

theorem domain_eq {domain other : Bytes} (hd : first.domain? = some domain)
    (ho : second.domain? = some other) (h : first.preimage = .ok bytes)
    (h' : second.preimage = .ok bytes) : domain = other := by
  rcases List.prefix_or_prefix_of_prefix (domain_begins hd h) (domain_begins ho h') with hp | hp
  · exact domains_apart _ (domain_mem hd) _ (domain_mem ho) hp
  · exact (domains_apart _ (domain_mem ho) _ (domain_mem hd) hp).symm

-- ---------------------------------------------------------------------------
-- What a digest tells
-- ---------------------------------------------------------------------------

/-- Of two openings, or of two others, the preimage tells which it was. -/
theorem eq_of_preimage (alike : first.domain? = none ↔ second.domain? = none)
    (h : first.preimage = .ok bytes) (h' : second.preimage = .ok bytes) : first = second := by
  have domains : first.domain? = second.domain? := by
    cases hd : first.domain? with
    | none => exact (alike.mp hd).symm
    | some domain =>
      cases ho : second.domain? with
      | none => exact absurd (alike.mpr ho) (by simp [hd])
      | some other => rw [domain_eq hd ho h h']
  cases first with
  | opening amount blinding =>
    cases second with
    | opening amount' blinding' =>
      obtain ⟨rfl, rfl⟩ := opening_inj h h'
      rfl
    | _ => cases domains
  | recipient employee =>
    cases second with
    | opening => cases domains
    | recipient employee' => rw [recipient_inj h h']
    | _ => exact absurd (Option.some.inj domains) (by decide +kernel)
  | nullifier blinding employee period =>
    cases second with
    | opening => cases domains
    | nullifier blinding' employee' period' =>
      obtain ⟨rfl, rfl, rfl⟩ := nullifier_inj h h'
      rfl
    | _ => exact absurd (Option.some.inj domains) (by decide +kernel)
  | viewKey company auditor nonce =>
    cases second with
    | opening => cases domains
    | viewKey company' auditor' nonce' =>
      obtain ⟨rfl, rfl, rfl⟩ := viewKey_inj h h'
      rfl
    | _ => exact absurd (Option.some.inj domains) (by decide +kernel)

theorem eq_of_digest (alike : first.domain? = none ↔ second.domain? = none)
    (apart : ¬ Collide first second) (h : first.preimage = .ok bytes)
    (h' : second.preimage = .ok others) (same : Sha256.digest bytes = Sha256.digest others) :
    first = second := by
  by_cases equal : bytes = others
  · exact eq_of_preimage alike h (equal ▸ h')
  · exact absurd ⟨bytes, others, h, h', equal, same⟩ apart

theorem not_collide (h : first.preimage = .ok bytes) (h' : second.preimage = .ok others)
    (differ : Sha256.digest bytes ≠ Sha256.digest others) : ¬ Collide first second := by
  rintro ⟨_, _, asked, asked', -, same⟩
  rw [h] at asked
  rw [h'] at asked'
  cases asked
  cases asked'
  exact differ same

theorem map_digest_eq_ok {result : Except Fault Bytes} {value : Bytes} :
    result.map Sha256.digest = .ok value ↔
      ∃ bytes, result = .ok bytes ∧ Sha256.digest bytes = value := by
  cases result <;> simp [Except.map]

theorem opens_iff {amount' : Int} {blinding' commitment : Bytes}
    (committed : CommitmentScheme.sha256.commit amount blinding = .ok commitment)
    (sized : blinding'.length = 32)
    (apart : ¬ Collide (opening amount' blinding') (opening amount blinding)) :
    CommitmentScheme.sha256.opens commitment amount' blinding' =
      .ok (decide (amount' = amount ∧ blinding' = blinding)) := by
  obtain ⟨bytes, (h : (opening amount blinding).preimage = .ok bytes), rfl⟩ :=
    map_digest_eq_ok.mp committed
  by_cases fits : CommitmentScheme.sha256.canEncode amount' = true
  · obtain ⟨others, h'⟩ : ∃ others, (opening amount' blinding').preimage = .ok others :=
      ⟨_, preimage_opening.mpr ⟨fits, sized, rfl⟩⟩
    have computed : CommitmentScheme.sha256.commit amount' blinding' = .ok (Sha256.digest others) :=
      map_digest_eq_ok.mpr ⟨others, h', rfl⟩
    have told : Sha256.digest others = Sha256.digest bytes ↔
        amount' = amount ∧ blinding' = blinding := by
      constructor
      · intro same
        injection eq_of_digest (by simp [domain?]) apart h' h same with amounts blindings
        exact ⟨amounts, blindings⟩
      · rintro ⟨rfl, rfl⟩
        rw [Except.ok.inj (h'.symm.trans h)]
    rw [CommitmentScheme.opens, if_pos fits, computed, Except.map, Bool.beq_eq_decide_eq,
      decide_eq_decide.mpr told]
  · have other : amount' ≠ amount := fun same => fits (same ▸ (preimage_opening.mp h).1)
    rw [CommitmentScheme.opens, if_neg fits, decide_eq_false fun h => other h.1]

theorem paymentNullifier_inj {blinding' value : Bytes} {employee' : Principal} {period' : Int}
    (h : paymentNullifier blinding employee period = .ok value)
    (h' : paymentNullifier blinding' employee' period' = .ok value)
    (apart : ¬ Collide (nullifier blinding employee period)
      (nullifier blinding' employee' period')) :
    blinding = blinding' ∧ employee = employee' ∧ period = period' := by
  obtain ⟨bytes, asked, rfl⟩ := map_digest_eq_ok.mp h
  obtain ⟨others, asked', same⟩ := map_digest_eq_ok.mp h'
  injection eq_of_digest (by simp [domain?]) apart asked asked' same.symm with hb he hp
  exact ⟨hb, he, hp⟩

theorem deriveId_eq_ok {id : String} :
    ViewKey.deriveId company auditor nonce = .ok id ↔
      ∃ bytes, (viewKey company auditor nonce).preimage = .ok bytes ∧
        Bytes.toHex (Sha256.digest bytes) = id := by
  simp only [ViewKey.deriveId, preimage, Fault.bind_eq_ok, pure, Except.pure, Except.ok.injEq]

theorem deriveId_inj {company' nonce' : Int} {auditor' : Principal} {id : String}
    (h : ViewKey.deriveId company auditor nonce = .ok id)
    (h' : ViewKey.deriveId company' auditor' nonce' = .ok id)
    (apart : ¬ Collide (viewKey company auditor nonce) (viewKey company' auditor' nonce')) :
    company = company' ∧ auditor = auditor' ∧ nonce = nonce' := by
  obtain ⟨bytes, asked, rfl⟩ := deriveId_eq_ok.mp h
  obtain ⟨others, asked', same⟩ := deriveId_eq_ok.mp h'
  injection eq_of_digest (by simp [domain?]) apart asked asked' (Bytes.toHex_injective same.symm)
    with hc ha hn
  exact ⟨hc, ha, hn⟩

/-- A preimage tells what was hashed, except that an opening and something else may share one. So
what SHA-256 makes of it tells as much wherever it does not collide: a commitment opens to what it
was made of and nothing else, whatever amount is claimed, and neither one-time values nor the ids of
view keys are shared. -/
theorem told_apart :
    (∀ (first second : Hashed) (bytes : Bytes), (first.domain? = none ↔ second.domain? = none) →
      first.preimage = .ok bytes → second.preimage = .ok bytes → first = second) ∧
    (∀ (amount amount' : Int) (blinding blinding' commitment : Bytes),
      CommitmentScheme.sha256.commit amount blinding = .ok commitment → blinding'.length = 32 →
      ¬ Collide (opening amount' blinding') (opening amount blinding) →
      CommitmentScheme.sha256.opens commitment amount' blinding' =
        .ok (decide (amount' = amount ∧ blinding' = blinding))) ∧
    (∀ (blinding blinding' value : Bytes) (employee employee' : Principal) (period period' : Int),
      paymentNullifier blinding employee period = .ok value →
      paymentNullifier blinding' employee' period' = .ok value →
      ¬ Collide (nullifier blinding employee period) (nullifier blinding' employee' period') →
      blinding = blinding' ∧ employee = employee' ∧ period = period') ∧
    (∀ (company company' nonce nonce' : Int) (auditor auditor' : Principal) (id : String),
      ViewKey.deriveId company auditor nonce = .ok id →
      ViewKey.deriveId company' auditor' nonce' = .ok id →
      ¬ Collide (viewKey company auditor nonce) (viewKey company' auditor' nonce') →
      company = company' ∧ auditor = auditor' ∧ nonce = nonce') :=
  ⟨fun _ _ _ alike h h' => eq_of_preimage alike h h',
    fun _ _ _ _ _ committed sized apart => opens_iff committed sized apart,
    fun _ _ _ _ _ _ _ h h' apart => paymentNullifier_inj h h' apart,
    fun _ _ _ _ _ _ _ h h' apart => deriveId_inj h h' apart⟩

end Hashed

namespace Sample

open Hashed

def blinding : Bytes := .replicate 32 7

/-- Amounts that differ, one that cannot be encoded, and a name that ends as a separator and a
period would. -/
theorem mimicry_told_apart :
    ∃ commitment, CommitmentScheme.sha256.commit 5 blinding = .ok commitment ∧
      CommitmentScheme.sha256.opens commitment 5 blinding = .ok true ∧
      CommitmentScheme.sha256.opens commitment 6 blinding = .ok false ∧
      CommitmentScheme.sha256.opens commitment (CommitmentScheme.largestAmount + 1) blinding =
        .ok false ∧
      (∀ value, paymentNullifier blinding "worker" 1 = .ok value →
        paymentNullifier blinding "worker\x00" 1 ≠ .ok value) ∧
      ∀ id, ViewKey.deriveId 0 "auditor" 1 = .ok id →
        ViewKey.deriveId 0 "auditor\x001" 1 ≠ .ok id := by
  obtain ⟨-, opens, nullifiers, ids⟩ := told_apart
  have itself : ¬ Collide (opening 5 blinding) (opening 5 blinding) := by
    rintro ⟨_, _, h, h', differ, -⟩
    exact differ (Except.ok.inj (h.symm.trans h'))
  have next : ¬ Collide (opening 6 blinding) (opening 5 blinding) :=
    not_collide rfl rfl (by decide +kernel)
  have wide : ¬ Collide (opening (CommitmentScheme.largestAmount + 1) blinding)
      (opening 5 blinding) := by
    rintro ⟨_, _, h, -⟩
    exact absurd (preimage_opening.mp h).1 (by decide)
  refine ⟨_, rfl, opens 5 5 blinding blinding _ rfl rfl itself,
    opens 5 6 blinding blinding _ rfl rfl next,
    opens 5 (CommitmentScheme.largestAmount + 1) blinding blinding _ rfl rfl wide,
    fun value h h' => ?_, fun id h h' => ?_⟩
  · have differ := nullifiers blinding blinding value "worker" "worker\x00" 1 1 h h'
      (not_collide rfl rfl (by decide +kernel))
    exact absurd differ.2.1 (by decide)
  · have differ := ids 0 0 1 1 "auditor" "auditor\x001" id h h'
      (not_collide rfl rfl (by decide +kernel))
    exact absurd differ.2.1 (by decide)

end Sample

end SealedPayroll
