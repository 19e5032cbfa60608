import EventPayload.Friendbuy.CustomEvent
import EventPayload.Friendbuy.Purchase
import EventPayload.Friendbuy.SignUp

/-!
# The catalog

The actions that can be run by name.

* `Catalog.actions` — all of them, in the order in which they are listed.
* `Catalog.find?` — the action of a given name.
-/

namespace EventPayload.Catalog

def actions : List Action :=
  [Friendbuy.trackCustomer, Friendbuy.trackPurchase, Friendbuy.trackSignUp,
    Friendbuy.trackCustomEvent]

/-- The action of a given name. -/
def find? (name : String) : Option Action :=
  actions.find? (·.name = name)

theorem names_distinct : (actions.map Action.name).Nodup := by decide

end EventPayload.Catalog
