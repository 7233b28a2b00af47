import Cdba.Supervision

namespace Cdba

/-!
# Access control

The user list of a device is consulted in three places: when a board is
selected, when boards are listed and when a board is described.  Over whole
sessions this keeps the server off every device that the user may not use.
-/

open Program

variable {n : Nat}

end Cdba
