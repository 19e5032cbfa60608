import EventPayload.Friendbuy.Customer

/-!
# Friendbuy purchases

A completed order, with the buyer in an object of the payload.  An order whose buyer has no
identifier is sent without the buyer.

* `Friendbuy.productDefaults`, `Friendbuy.productRules` — the products of an order.
* `Friendbuy.trackPurchase` — the call.
-/

namespace EventPayload.Friendbuy

def purchaseDirectives : Record :=
  lookUpAll [("orderId", "$.properties.order_id"),
    ("amount", "$.properties.total"),
    ("currency", "$.properties.currency"),
    ("coupon", "$.properties.coupon"),
    ("giftCardCodes", "$.properties.giftCardCodes"),
    ("products", "$.properties.products")]
    ++ identity "properties"

/-- What a product has unless it says otherwise. -/
def productDefaults : Record :=
  [("sku", .str "unknown"), ("name", .str "unknown"),
    ("quantity", .num (.integer ⟨1, by decide, by decide⟩))]

def productRules : Ruleset :=
  [("sku", .coerce none .text), ("name", .copy), ("quantity", .coerce none .integer),
    ("price", .coerce none .number), ("description", .copy), ("category", .copy), ("url", .copy),
    ("image_url", .moveTo (.top "imageUrl"))]

def purchaseMapping : Mapping where
  rules := [("orderId", .coerce (some (.top "id")) .text),
      ("amount", .coerce none .number),
      ("currency", .copy),
      ("coupon", .moveTo (.top "couponCode")),
      ("giftCardCodes", .copy),
      ("products", .each productDefaults productRules)]
    ++ customerRules (.within "customer")
  leftovers := .pass
  finishers := [.require "customer" "id"]
  sound := by decide +kernel

/-- **The purchase call** records a completed order. -/
def trackPurchase : Action where
  name := "trackPurchase"
  directives := purchaseDirectives
  mapping := purchaseMapping
  eventName _ := .ok "purchase"
  prepare := Preparation.runAll prepareCustomer

end EventPayload.Friendbuy
