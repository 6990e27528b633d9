import GuestHost.Json
/-!
# Records in JSON

A record is written as an object, whose members stand in any order, or as an array that gives the
fields in their order. Members that name no field are passed over; a field given twice, a member
whose name is no text and an item too many are refused.
-/

namespace GuestHost

namespace Json

/-- What an object says of one field: nothing, its value, or too much. -/
def single? (members : List (Option String × Json)) (name : String) : Option (Option Json) :=
  match members.filter (fun m => m.1 == some name) with
  | [] => some none
  | [m] => some (some m.2)
  | _ => none

/-- The values of the named fields, each of them absent or given once. -/
def fields? (names : List String) : Json → Option (List (Option Json))
  | object members =>
    if members.all (fun m => m.1.isSome) then names.mapM (single? members) else none
  | array items =>
    if items.length ≤ names.length then
      some (items.map some ++ List.replicate (names.length - items.length) none)
    else none
  | _ => none

end Json

end GuestHost
