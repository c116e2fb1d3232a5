import SortingOffice.Proofs.Rule.OwnLine

/-!
# Repeated labels

A definition is refused if a label stands in it more than once. The labels are counted from the left
without overlaps, and no label has a border, so it comes to the same to compare the first place of a
label with the last one.

* `Criterion.unbordered_label`: labels have no border.
* **`Criterion.repeatedIn_iff_places`**: counting a key, and comparing its first and last place.
-/

namespace SortingOffice.Criterion

open Text

theorem unbordered_label (c : Criterion) : Unbordered c.label.toList :=
  apart_tail_iff.1 c.apart_label_tail

/-- **A label is repeated exactly if its first place is not its last.** A key that is not empty is
counted in every text as often as it has places there, exactly if it has no border. A key without a
border then appears at most once exactly if it has no place or its first place is the last one. The
labels are such keys, so this says when a definition has a label more than once. -/
theorem repeatedIn_iff_places :
    (∀ key : String, key ≠ "" →
      ((∀ text, occurrences key text = (places key.toList text.toList).length) ↔
        Unbordered key.toList) ∧
      (Unbordered key.toList → ∀ text,
        (appearsAtMostOnce key text = true ↔ FirstIsLast key.toList text.toList))) ∧
    ∀ c : Criterion, c.label ≠ "" ∧ Unbordered c.label.toList ∧
      ∀ text, (c.repeatedIn text = false ↔ FirstIsLast c.label.toList text.toList) := by
  refine ⟨?_, ?_⟩
  · intro key hkey
    have hkey' : key.toList ≠ [] := mt String.toList_eq_nil_iff.1 hkey
    refine ⟨?_, fun hborder text => appearsAtMostOnce_iff (apart_tail_iff.2 hborder) hkey'⟩
    rw [← countFrom_eq_length_places_iff hkey']
    constructor
    · intro h cs
      simpa [occurrences] using h (String.ofList cs)
    · exact fun h text => h text.toList
  · intro c
    refine ⟨mt String.toList_eq_nil_iff.2 c.toList_label_ne_nil, c.unbordered_label, fun text => ?_⟩
    rw [repeatedIn, Bool.not_eq_false',
      appearsAtMostOnce_iff c.apart_label_tail c.toList_label_ne_nil]

/-- A label with three places. -/
theorem repeatedIn_sender_thrice :
    "from:" ≠ "" ∧ Unbordered "from:".toList ∧
      (places "from:".toList
        "from: a@x.com\nsubject-includes: from:\nfrom: b@x.com".toList).length = 3 ∧
      ¬ FirstIsLast "from:".toList
        "from: a@x.com\nsubject-includes: from:\nfrom: b@x.com".toList := by
  have hkey : "from:" ≠ "" := by decide
  have hborder : Unbordered "from:".toList := unbordered_label .sender
  have hcount :
      occurrences "from:" "from: a@x.com\nsubject-includes: from:\nfrom: b@x.com" = 3 := by
    decide +kernel
  obtain ⟨hplaces, hfirst⟩ := repeatedIn_iff_places.1 "from:" hkey
  refine ⟨hkey, hborder, ?_, ?_⟩
  · rw [← hplaces.2 hborder, hcount]
  · rw [← hfirst hborder, appearsAtMostOnce, hcount]
    decide

end SortingOffice.Criterion
