import SealedPayroll.Host.Transaction

/-!
# The verifier

The verification key is set once. Checking a proof without a key is an error;
everything else that can be wrong with a proof or its inputs is a rejection,
except for what the backend raises besides pairing faults and for bounds of a
range that do not fit their 32 bytes.
-/

namespace SealedPayroll.Verifier

variable {σ : Type}

def componentName : String := "ProofVerifier"

def setKey (key : VerificationKey) : Action σ Unit :=
  Host.transaction do
    if (← .read fun host => host.ledger.verificationKey).isSome then
      .refuse (.alreadyInitialized componentName)
    else .write fun ledger => ledger.setVerificationKey key

def verify (backend : PairingBackend) (proof : Proof) (inputs : List Bytes) : Action σ Bool := do
  let key ← .expect (·.ledger.verificationKey) (.notInitialized componentName)
  let (asked, answer) := Groth16.verdict backend key proof inputs
  .change fun host => { host with transcript := host.transcript.append asked }
  .ofExcept answer

def verifyPayment (backend : PairingBackend) (proof : Proof)
    (commitment nullifier recipient : Bytes) : Action σ Bool :=
  verify backend proof [commitment, nullifier, recipient]

/-- Whether a proof that a committed amount lies in a range is accepted. -/
def verifyRange (backend : PairingBackend) (proof : Proof) (commitment : Bytes)
    (least greatest : Int) : Action σ Bool := do
  if least < 0 ∨ greatest < least then return false
  let low ← .ofExcept (Bytes.encodeBigEndian 32 least)
  let high ← .ofExcept (Bytes.encodeBigEndian 32 greatest)
  verify backend proof [commitment, low, high]

/-- Whether all proofs are accepted, each with its three inputs; stops at the first that is not. -/
def verifyEach (backend : PairingBackend) :
    List (Proof × Bytes × Bytes × Bytes) → Action σ Bool
  | [] => return true
  | (proof, commitment, nullifier, recipient) :: rest => do
    if ← verifyPayment backend proof commitment nullifier recipient then verifyEach backend rest
    else return false

/-- Whether a batch of payment proofs is accepted; lists of different lengths are not. -/
def verifyBatch (backend : PairingBackend) (proofs : List Proof)
    (commitments nullifiers recipients : List Bytes) : Action σ Bool :=
  if commitments.length = proofs.length ∧ nullifiers.length = proofs.length ∧
      recipients.length = proofs.length then
    verifyEach backend (proofs.zip (commitments.zip (nullifiers.zip recipients)))
  else return false

end SealedPayroll.Verifier
