import SecureMail.Evidence.Certificate
import SecureMail.Py.Datetime

/-!
# Certificates, as the `cryptography` package answers about them

The package is not part of the repository. What the code asks of a certificate is the interface
below, and every question that may raise has a `Result` for an answer.

The interface is as small as the code allows: a certificate that was loaded, its names, its dates,
its key and its alternative names, and the verifier with its message. Nothing is assumed of the
answers here. Where a result depends on what the package does, on a failure of the loader for
instance, the assumption stands in the result, under a name, and says what the package documents.
-/

namespace SecureMail
namespace Pki

/-- The class of `certificate.public_key()`, with the facts that are read of it. -/
inductive PublicKey where
  | rsa (size : Int)
  | dsa (size : Int)
  | ec (size : Int) (curve : String)
  | ed25519
  | ed448
  | other (className : String)
  deriving DecidableEq, Repr

/-- How `load_der_x509_certificate` fails: the code tells `ValueError` from anything else. -/
inductive LoadFailure where
  | valueError
  | other (error : Error)
  deriving DecidableEq, Repr

inductive GeneralName where
  | dns (value : String)
  | ip (value : String)
  | other
  deriving DecidableEq, Repr

structure X509Library where
  Certificate : Type
  Name : Type
  nameEq : DecidableEq Name
  loadDer : List UInt8 → Except LoadFailure Certificate
  publicKey : Certificate → Result PublicKey
  serialNumber : Certificate → Int
  subject : Certificate → Result Name
  issuer : Certificate → Result Name
  rfc4514 : Name → Result String
  notValidBefore : Certificate → Py.Datetime
  notValidAfter : Certificate → Py.Datetime
  signatureAlgorithmOid : Certificate → String
  /-- The entries of the SAN extension; `none` where there is no such extension. -/
  subjectAltNames : Certificate → Result (Option (List GeneralName))
  /-- A client verifier at a time, on a leaf and its intermediates: `none` when it accepts, and
  otherwise the message of the `VerificationError`. -/
  verify : List Certificate → Py.Datetime → Certificate → List Certificate → Result (Option String)

/-- `_as_utc`. -/
def asUtc (value : Py.Datetime) : Result Py.Datetime :=
  match value.asUtc? with
  | some instant => pure instant
  | none => throw .overflowError

end Pki
end SecureMail
