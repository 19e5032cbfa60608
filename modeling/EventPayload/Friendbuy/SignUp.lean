import EventPayload.Friendbuy.Customer

/-!
# Friendbuy sign-ups

The call that records that a customer has signed up for an account.

* `Friendbuy.signUpMapping` — the customer fields at the top of the payload, and nothing else.
* `Friendbuy.trackSignUp` — the call.
-/

namespace EventPayload.Friendbuy

def signUpMapping : Mapping where
  rules := customerRules .top
  leftovers := .pass
  sound := by decide +kernel

/-- **The sign-up call** records a new account. -/
def trackSignUp : Action where
  name := "trackSignUp"
  directives := identity "properties" ++ language
  mapping := signUpMapping
  eventName _ := .ok "sign_up"
  prepare := Preparation.runAll prepareCustomer

end EventPayload.Friendbuy
