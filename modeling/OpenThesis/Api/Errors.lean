/-!
# Errors of the API

Codes, messages and hints (`internal/api/errors.go`); the code decides the status.
-/

namespace OpenThesis.Api

inductive ErrCode
  | authKeyMissing
  | authKeyInvalid
  | authKeyExpired
  | forbidden
  | notFound
  | findingNotFound
  | validationError
  | missingField
  | invalidField
  | internalError
  deriving DecidableEq

def errorStatus : ErrCode → Nat
  | .authKeyMissing | .authKeyInvalid | .authKeyExpired => 401
  | .forbidden => 403
  | .notFound | .findingNotFound => 404
  | .validationError | .missingField | .invalidField => 400
  | .internalError => 500

theorem le_errorStatus (code : ErrCode) : 400 ≤ errorStatus code := by
  cases code <;> decide

structure APIError where
  code : ErrCode
  message : String
  hint : String := ""
  deriving DecidableEq

end OpenThesis.Api
