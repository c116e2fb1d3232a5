/-!
# Accounts

* `Account`: a mail address with the name it is registered under, ordered by address, then by name.
-/

namespace SortingOffice

/-- A mail address and the name of its owner. -/
structure Account where
  email : String
  name : String
deriving DecidableEq, Repr

namespace Account

/-- The name with the address in angle brackets. -/
def display (a : Account) : String := a.name ++ " <" ++ a.email ++ ">"

instance : ToString Account := ⟨name⟩

@[ext] theorem ext {a b : Account} (he : a.email = b.email) (hn : a.name = b.name) : a = b := by
  cases a; cases b; simp_all

/-- The order of accounts: by address, then by name. -/
def order : Account → Account → Ordering := compareLex (compareOn email) (compareOn name)

instance : Ord Account := ⟨order⟩

instance : Std.TransOrd Account :=
  inferInstanceAs <| Std.TransCmp <| compareLex (compareOn email) (compareOn name)

instance : Std.LawfulEqOrd Account where
  eq_of_compare {a b} h := by
    have h' : order a b = .eq := h
    simp only [order, compareLex_eq_eq, compareOn] at h'
    exact Account.ext (Std.LawfulEqOrd.eq_of_compare h'.1) (Std.LawfulEqOrd.eq_of_compare h'.2)

end Account

end SortingOffice
