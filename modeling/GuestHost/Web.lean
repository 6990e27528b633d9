import GuestHost.Web.Url
/-!
# The web

What a host has of the web are functions from outside: one that reads addresses, and one that gives
the page that a request for an address is answered with. Nothing here says anything about them. A
host without a network reads addresses all the same.
-/

namespace GuestHost

/-- A page: its status and its body. -/
structure Page where
  status : Nat
  body : Bytes

/-- The statuses of pages that tell of an error. -/
def Page.fails (page : Page) : Bool := 400 ≤ page.status && page.status < 600

/-- The web as a host has it. -/
structure Web where
  /-- Whether there is a client that can make requests. -/
  client : Bool
  /-- The address that a text spells. -/
  address? : String → Option Url
  /-- The page at an address, if a request gets there and the whole page comes back. -/
  page? : Url → Option Page

namespace Web

/-- The web of a host without a network. -/
def offline : Web := ⟨true, Url.parse?, fun _ => none⟩

/-- The address that a request for a text goes to, if one can be made. -/
def target? (w : Web) (text : String) : Option Url := if w.client then w.address? text else none

/-- The body of the page at an address, if a request succeeds. -/
def fetch (w : Web) (url : Url) : Option Bytes :=
  match w.page? url with
  | some page => if page.fails then none else some page.body
  | none => none

end Web

end GuestHost
