import SortingOffice.Proofs.Folders.Links

/-!
# Operations on a tree in the other order

* **`putMail_comm`**: two mails can be put into their folders in either order.
* **`link_putMail`**, `parentForNew_congr`: a mail for a folder that is there does not mind a new
  folder, and the new folder does not mind the mail.
-/

namespace SortingOffice.FolderTree

variable {t t' : FolderTree} {p q parent : Path} {m n : Mail}

theorem contains_putMail_of_contains (h : t.contains q = true) (p : Path) (m : Mail) :
    (t.putMail p m).contains q = true := by
  rw [contains_putMail, h, Bool.or_true]

/-- **Two mails can be put into their folders in either order.** -/
theorem putMail_comm (hp : t.contains p = true) (hq : t.contains q = true) (m n : Mail) :
    (t.putMail p m).putMail q n = (t.putMail q n).putMail p m := by
  apply ext_links
  · intro s
    rw [links_putMail (contains_putMail_of_contains hq p m), links_putMail hp,
      links_putMail (contains_putMail_of_contains hp q n), links_putMail hq]
  · intro s k
    rw [holds_putMail, holds_putMail, holds_putMail, holds_putMail, or_right_comm]

/-- **A new folder and a mail for another one can come in either order.** -/
theorem link_putMail (hp : t.contains p = false) (hq : t.contains q = true) (m : Mail) :
    (t.link p parent).putMail q m = (t.putMail q m).link p parent := by
  have hq' : (t.link p parent).contains q = true := by rw [contains_link, hq, Bool.or_true]
  have hp' : (t.putMail q m).contains p = false := by rwa [contains_congr (links_putMail hq m p)]
  apply ext_links
  · intro s
    rw [links_putMail hq', links_link, links_link, links_putMail hq]
  · intro s k
    rw [holds_putMail, holds_link hp, holds_link hp', holds_putMail]

/-- Where folders can be created does not depend on the mails. -/
theorem parentForNew_congr (h : ∀ q, t'.links q = t.links q) (p : Path) :
    t'.parentForNew p = t.parentForNew p := by
  have hcontains : t'.contains = t.contains := funext fun q => contains_congr (h q)
  rw [parentForNew, hcontains, parentForNew]

end SortingOffice.FolderTree
