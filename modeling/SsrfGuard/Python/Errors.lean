import SsrfGuard.Python.Text

/-! # What a call may raise

One type for every exception the modelled code raises, catches or lets through: the library's own
hierarchy, the private classes of the DNS parser, and the built-in ones the handlers of the source
tell apart. `Exc.otherException` stands for the remaining subclasses of `Exception`, `Exc.baseException`
for what `except Exception` does not catch. -/

namespace SsrfGuard

/-- An exception, with the data the source reads back from it. -/
inductive Exc
  /-- `BlockedAddressError(address, reason)`. -/
  | blockedAddressError (address reason : Str)
  /-- `BlockedURLError(url, reason)`. -/
  | blockedURLError (url reason : Str)
  /-- `ProxyUnsupportedError(proxy)`. -/
  | proxyUnsupportedError (proxy : Str)
  /-- `TooManyRedirectsError(limit, chain)`. -/
  | tooManyRedirectsError (limit : ℤ) (chain : List Str)
  /-- `_MalformedError` of the DNS parser. -/
  | malformedError (message : Str)
  /-- `_WrongQuestionError` of the DNS parser. -/
  | wrongQuestionError (message : Str)
  /-- `_ServerFailureError` of the DNS parser. -/
  | serverFailureError (message : Str)
  /-- The built-in `TimeoutError`, a subclass of `OSError`. -/
  | timeoutError (message : Str)
  /-- `socket.gaierror`, a subclass of `OSError`, raised with or without a number. -/
  | gaierror (errno : Option ℤ) (message : Str)
  /-- Any other `OSError`. -/
  | osError (message : Str)
  /-- `ValueError` and its subclasses. -/
  | valueError (message : Str)
  /-- `IndexError`. -/
  | indexError (message : Str)
  /-- Any other subclass of `Exception`. -/
  | otherException (message : Str)
  /-- A `BaseException` outside `Exception`, such as `KeyboardInterrupt`. -/
  | baseException (message : Str)
  deriving DecidableEq

namespace Exc

/-- `isinstance(e, OSError)`. -/
def isOSError : Exc → Bool
  | timeoutError _ | gaierror _ _ | osError _ => true
  | _ => false

/-- `isinstance(e, TimeoutError)`. -/
def isTimeoutError : Exc → Bool
  | timeoutError _ => true
  | _ => false

/-- `isinstance(e, Exception)`. -/
def isException : Exc → Bool
  | baseException _ => false
  | _ => true

/-- `isinstance(e, socket.gaierror)`. -/
def isGaierror : Exc → Bool
  | gaierror _ _ => true
  | _ => false

/-- `isinstance(e, _MalformedError)`. -/
def isMalformedError : Exc → Bool
  | malformedError _ => true
  | _ => false

/-- `isinstance(e, _WrongQuestionError)`. -/
def isWrongQuestionError : Exc → Bool
  | wrongQuestionError _ => true
  | _ => false

/-- `isinstance(e, _ServerFailureError)`. -/
def isServerFailureError : Exc → Bool
  | serverFailureError _ => true
  | _ => false

/-- `isinstance(e, SSRFGuardError)`. -/
def isSSRFGuardError : Exc → Bool
  | blockedAddressError _ _ | blockedURLError _ _ | proxyUnsupportedError _
  | tooManyRedirectsError _ _ => true
  | _ => false

/-- `str(e)`. -/
def str (U : Unicode) : Exc → Str
  | blockedAddressError address reason => address ++ text " is not permitted: " ++ reason
  | blockedURLError url reason => repr U url ++ text " is not permitted: " ++ reason
  | proxyUnsupportedError proxy =>
    text "a proxy is configured (" ++ proxy ++
      text ") and it resolves the target itself, so the validated address cannot be pinned; " ++
      text "set allow_proxy=True to accept that enforcement has moved to the proxy"
  | tooManyRedirectsError limit chain =>
    text "redirect chain exceeded max_redirects=" ++ intText limit ++ text ": " ++
      join (text " -> ") chain
  | gaierror (some errno) message => text "[Errno " ++ intText errno ++ text "] " ++ message
  | gaierror none message => message
  | malformedError message | wrongQuestionError message | serverFailureError message
  | timeoutError message | osError message | valueError message | indexError message
  | otherException message | baseException message => message

/-- `getattr(e, "reason", e)` rendered as text: what a refusal is reported with. -/
def reason (U : Unicode) : Exc → Str
  | blockedAddressError _ reason | blockedURLError _ reason => reason
  | e => e.str U

@[simp] theorem reason_blockedURLError (U : Unicode) (url why : Str) :
    (blockedURLError url why).reason U = why := rfl

end Exc

end SsrfGuard
