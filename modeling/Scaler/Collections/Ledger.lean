import Mathlib.Data.List.Nodup

/-! Things that were reported once, are listed or in somebody's hands, and end. -/

namespace Collections

structure Ledger (α : Type*) where
  listed : List α
  inHand : List α
  ended : List α
  reported : List α

namespace Ledger

variable {α : Type*} {l : Ledger α}

/-- Nothing that was reported is forgotten, and nothing is listed twice. -/
structure Ok (l : Ledger α) : Prop where
  kept : ∀ a ∈ l.reported, a ∈ l.listed ∨ a ∈ l.inHand ∨ a ∈ l.ended
  nodup : l.listed.Nodup
  apart : ∀ a ∈ l.inHand, a ∉ l.listed
  known : ∀ a, a ∈ l.listed ∨ a ∈ l.inHand → a ∈ l.reported

theorem Ok.report (h : l.Ok) {new : List α} (hnew : ∀ a ∈ new, a ∈ l.reported → a ∈ l.inHand) :
    Ok { l with reported := l.reported ++ new, inHand := l.inHand ++ new } where
  kept := by
    intro a ha
    obtain ha | ha := List.mem_append.mp ha
    · obtain hlisted | hhand | hended := h.kept a ha
      · exact .inl hlisted
      · exact .inr (.inl (List.mem_append_left new hhand))
      · exact .inr (.inr hended)
    · exact .inr (.inl (List.mem_append_right l.inHand ha))
  nodup := h.nodup
  apart := by
    intro a ha hlisted
    obtain ha | ha := List.mem_append.mp ha
    · exact h.apart a ha hlisted
    · exact h.apart a (hnew a ha (h.known a (.inl hlisted))) hlisted
  known := by
    rintro a (ha | ha)
    · exact List.mem_append_left new (h.known a (.inl ha))
    · obtain ha | ha := List.mem_append.mp ha
      · exact List.mem_append_left new (h.known a (.inr ha))
      · exact List.mem_append_right l.reported ha

theorem Ok.list (h : l.Ok) {entries : List α} (hnodup : entries.Nodup) (hentries : ∀ a, a ∈ entries ↔ a ∈ l.inHand) :
    Ok { l with listed := l.listed ++ entries, inHand := [] } where
  kept := by
    intro a ha
    obtain hlisted | hhand | hended := h.kept a ha
    · exact .inl (List.mem_append_left entries hlisted)
    · exact .inl (List.mem_append_right l.listed ((hentries a).mpr hhand))
    · exact .inr (.inr hended)
  nodup := by
    refine h.nodup.append hnodup fun a hlisted hentry => ?_
    exact h.apart a ((hentries a).mp hentry) hlisted
  apart := nofun
  known := by
    rintro a (ha | ha)
    · obtain ha | ha := List.mem_append.mp ha
      · exact h.known a (.inl ha)
      · exact h.known a (.inr ((hentries a).mp ha))
    · cases ha

theorem Ok.take (h : l.Ok) (n : Nat) :
    Ok { l with listed := l.listed.drop n, inHand := l.inHand ++ l.listed.take n } where
  kept := by
    intro a ha
    obtain hlisted | hhand | hended := h.kept a ha
    · rw [← List.take_append_drop n l.listed, List.mem_append] at hlisted
      obtain htake | hdrop := hlisted
      · exact .inr (.inl (List.mem_append_right l.inHand htake))
      · exact .inl hdrop
    · exact .inr (.inl (List.mem_append_left _ hhand))
    · exact .inr (.inr hended)
  nodup := h.nodup.sublist (List.drop_sublist n l.listed)
  apart := by
    intro a ha hdrop
    obtain hhand | htake := List.mem_append.mp ha
    · exact h.apart a hhand (List.mem_of_mem_drop hdrop)
    · have hsplit := h.nodup
      rw [← List.take_append_drop n l.listed] at hsplit
      exact (List.nodup_append.mp hsplit).2.2 a htake a hdrop rfl
  known := by
    rintro a (ha | ha)
    · exact h.known a (.inl (List.mem_of_mem_drop ha))
    · obtain ha | ha := List.mem_append.mp ha
      · exact h.known a (.inr ha)
      · exact h.known a (.inl (List.mem_of_mem_take ha))

/-- What is in hand, or a part of it, ends. -/
theorem Ok.finish (h : l.Ok) {gone rest : List α} (hhand : ∀ a, a ∈ l.inHand ↔ a ∈ gone ∨ a ∈ rest) :
    Ok { l with inHand := rest, ended := l.ended ++ gone } where
  kept := by
    intro a ha
    obtain hlisted | hin | hended := h.kept a ha
    · exact .inl hlisted
    · obtain hgone | hrest := (hhand a).mp hin
      · exact .inr (.inr (List.mem_append_right l.ended hgone))
      · exact .inr (.inl hrest)
    · exact .inr (.inr (List.mem_append_left gone hended))
  nodup := h.nodup
  apart := fun a ha => h.apart a ((hhand a).mpr (.inr ha))
  known := by
    rintro a (ha | ha)
    · exact h.known a (.inl ha)
    · exact h.known a (.inr ((hhand a).mpr (.inr ha)))

theorem Ok.end_more (h : l.Ok) (more : List α) : Ok { l with ended := l.ended ++ more } where
  kept := by
    intro a ha
    obtain hlisted | hhand | hended := h.kept a ha
    · exact .inl hlisted
    · exact .inr (.inl hhand)
    · exact .inr (.inr (List.mem_append_left more hended))
  nodup := h.nodup
  apart := h.apart
  known := h.known

theorem Ok.kept_of_inHand_nil (h : l.Ok) (hhand : l.inHand = []) {a : α} (ha : a ∈ l.reported) :
    a ∈ l.listed ∨ a ∈ l.ended := by
  obtain hlisted | hin | hended := h.kept a ha
  · exact .inl hlisted
  · rw [hhand] at hin
    cases hin
  · exact .inr hended

end Ledger

end Collections
