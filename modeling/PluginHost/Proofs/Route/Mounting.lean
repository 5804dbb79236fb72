import Mathlib.Data.List.DropRight
import PluginHost.Proofs.Route.Matching

/-!
# Where routes are mounted

A route of a plugin is mounted under the plugin's name, however its own path begins and ends: the
slashes at the end are left out, and there is one slash behind the name, whether the path has one
in front or not. What a router makes of the full path are the pieces between its slashes, and these
are the mount point, the pieces of the name and the pieces of the path. A name without slashes is
one piece, so it can be read off any full path.

* `trimSlashes_append`: what is trimmed of a text that was put together.
* `fullPath_append_slashes`, `fullPath_slash_append`: spellings of a path with one full path.
* `eq_of_fullPath_eq`: two plugins whose names have no slashes have no full path in common.
* `fullPath_mounts`: all of it in one statement.
-/
namespace PluginHost.Route

variable {plugin path : String}

/-! ## Trimming -/

/-- Only when nothing is left of the second text, the first one is trimmed. -/
theorem trimSlashes_append (a b : String) : trimSlashes (a ++ b) =
    if trimSlashes b = "" then trimSlashes a else a ++ trimSlashes b := by
  have hempty : trimSlashes b = "" ↔ (b.toList.reverse.dropWhile (· = '/')).isEmpty = true := by
    rw [trimSlashes, ← String.toList_inj, String.toList_ofList]
    simp
  rw [trimSlashes, String.toList_append, List.reverse_append, List.dropWhile_append]
  by_cases h : trimSlashes b = ""
  · rw [if_pos h, if_pos (hempty.1 h), trimSlashes]
  · rw [if_neg h, if_neg (mt hempty.2 h), ← String.toList_inj, trimSlashes]
    simp

theorem trimSlashes_slashes (n : Nat) : trimSlashes (String.ofList (List.replicate n '/')) = "" := by
  have hall : (List.replicate n '/').dropWhile (· = '/') = [] :=
    List.dropWhile_eq_nil_iff.2 fun c hc => decide_eq_true (List.eq_of_mem_replicate hc)
  rw [trimSlashes, String.toList_ofList, List.reverse_replicate, hall]
  rfl

/-- What is left of a text begins as the text does. -/
theorem head?_trimSlashes (h : trimSlashes path ≠ "") :
    (trimSlashes path).toList.head? = path.toList.head? := by
  have hprefix : (trimSlashes path).toList <+: path.toList := by
    rw [trimSlashes, String.toList_ofList]
    exact List.rdropWhile_prefix _ path.toList
  obtain ⟨slashes, hslashes⟩ := hprefix
  rw [← hslashes, List.head?_append_of_ne_nil _ (mt String.toList_eq_nil_iff.1 h)]

/-! ## One full path for several paths -/

theorem fullPath_congr {other : String} (h : trimSlashes path = trimSlashes other) :
    fullPath plugin path = fullPath plugin other := by
  rw [fullPath, fullPath, h]

/-- Slashes at the end of a path make no difference. -/
theorem fullPath_append_slashes (plugin path : String) (n : Nat) :
    fullPath plugin (path ++ String.ofList (List.replicate n '/')) = fullPath plugin path :=
  fullPath_congr (by rw [trimSlashes_append, if_pos (trimSlashes_slashes n)])

/-- Nor does a slash in front of a path that has none there. -/
theorem fullPath_slash_append (h : path.toList.head? ≠ some '/') :
    fullPath plugin ("/" ++ path) = fullPath plugin path := by
  have htrim := trimSlashes_append "/" path
  by_cases hempty : trimSlashes path = ""
  · rw [if_pos hempty] at htrim
    exact fullPath_congr (htrim.trans hempty.symm)
  · rw [if_neg hempty] at htrim
    have hslash : ("/" ++ trimSlashes path).toList.head? = some '/' := by simp
    have hplain : (trimSlashes path).toList.head? ≠ some '/' := by
      rwa [head?_trimSlashes hempty]
    have hlonger : "/" ++ trimSlashes path ≠ "" := fun heq => by
      rw [heq] at hslash
      cases hslash
    simp only [fullPath, htrim, if_neg hlonger, if_pos hslash, if_neg hempty, if_neg hplain]
    simp only [String.append_assoc]

/-! ## The name in a full path -/

/-- Plugins whose names have no slashes have no full path in common. -/
theorem eq_of_fullPath_eq {p q x y : String} (hp : '/' ∉ p.toList) (hq : '/' ∉ q.toList)
    (h : fullPath p x = fullPath q y) : p = q := by
  by_contra hne
  exact not_nested_of_plain hp hq (nested_of_fullPath_eq hne h)

/-- The pieces of a full path are the mount point, the pieces of the name and those of the path.
Slashes at the end of a path and a missing one in front make no difference to the full path; and
it is the full path of no other plugin, if the names have no slashes. -/
theorem fullPath_mounts (p x : String) :
    ((fullPath p x).toList.splitOn '/').filter (· ≠ []) =
        "plugins".toList :: ((p.toList.splitOn '/').filter (· ≠ []) ++
          (x.toList.splitOn '/').filter (· ≠ [])) ∧
      (∀ n, fullPath p (x ++ String.ofList (List.replicate n '/')) = fullPath p x) ∧
      (x.toList.head? ≠ some '/' → fullPath p ("/" ++ x) = fullPath p x) ∧
      ∀ q y, '/' ∉ p.toList → '/' ∉ q.toList → fullPath p x = fullPath q y → p = q := by
  refine ⟨?_, fullPath_append_slashes p x, fullPath_slash_append, fun q y => eq_of_fullPath_eq⟩
  have hsegments := segments_fullPath p x
  simp only [segments_eq_splitOn, ← List.map_append] at hsegments
  have htexts : Function.Injective String.ofList := fun _ _ h => String.ofList_inj.1 h
  refine List.map_injective_iff.2 htexts ?_
  rw [hsegments, List.map_cons, String.ofList_toList]

/-- The list of the notes is mounted at one place in all its spellings, which tells the name, and
no list of a plugin with a shorter name is mounted there. -/
theorem notes_mounted : "list//".toList.head? ≠ some '/' ∧
    fullPath "notes" "/list//" = fullPath "notes" "list//" ∧
    (∃ q y, '/' ∉ "notes".toList ∧ '/' ∉ q.toList ∧
      fullPath "notes" "list//" = fullPath q y ∧ "notes" = q) ∧
    fullPath "notes" "list//" ≠ fullPath "note" "s/list" := by
  have hplain : "list//".toList.head? ≠ some '/' := by decide
  have hname : '/' ∉ "notes".toList := by decide
  have hshort : '/' ∉ "note".toList := by decide
  obtain ⟨-, -, hfront, hother⟩ := fullPath_mounts "notes" "list//"
  have hspelled : fullPath "notes" "list//" = fullPath "notes" "list" :=
    (fullPath_mounts "notes" "list").2.1 2
  exact ⟨hplain, hfront hplain,
    ⟨"notes", "list", hname, hname, hspelled, hother "notes" "list" hname hname hspelled⟩,
    fun heq => absurd (hother "note" "s/list" hname hshort heq) (by decide)⟩

end PluginHost.Route
