import Mathlib.Data.List.TakeWhile
import MailFilter.Mail.Address

/-!
# How addresses are written and divided

The text of an address may begin with a route, which does not count. The last at sign behind that
divides it into a local part and a domain. These lemmas describe the division and the parts that
tests compare, apart from the functions that compute them.
-/

namespace MailFilter.Address

/-- Characters without the route before them: an at sign, and behind it everything through the
first colon. Without a colon there is no route. -/
inductive Unrouted : List Char → List Char → Prop
  | routed {hops : List Char} (hcolon : ':' ∉ hops) (mailbox : List Char) :
    Unrouted ('@' :: (hops ++ ':' :: mailbox)) mailbox
  | plain {text : List Char}
    (hplain : ∀ hops mailbox, ':' ∉ hops → text ≠ '@' :: (hops ++ ':' :: mailbox)) :
    Unrouted text text

/-- The address that characters without a route spell: their last at sign stands between the local
part and the domain, and without one there is no domain. -/
inductive Divides : List Char → Address → Prop
  | domain (localPart : List Char) {domain : List Char} (hlast : '@' ∉ domain) :
    Divides (localPart ++ '@' :: domain)
      ⟨String.ofList localPart, some (String.ofList domain)⟩
  | localPart {text : List Char} (hnone : '@' ∉ text) : Divides text ⟨String.ofList text, none⟩

/-- A text spells an address. -/
def IsSpelledBy (address : Address) (text : String) : Prop :=
  ∃ mailbox, Unrouted text.toList mailbox ∧ Divides mailbox address

/-- The text of a part of an address: all of it, with an at sign before the domain; or what stands
before the at sign; or the domain. An absent domain counts as empty and has no at sign. -/
inductive HasPart : Address → AddressPart → String → Prop
  | all (localPart domain : String) :
    HasPart ⟨localPart, some domain⟩ .all (localPart ++ "@" ++ domain)
  | undivided (localPart : String) : HasPart ⟨localPart, none⟩ .all localPart
  | localpart (localPart : String) (domain : Option String) :
    HasPart ⟨localPart, domain⟩ .localpart localPart
  | domain (localPart domain : String) : HasPart ⟨localPart, some domain⟩ .domain domain
  | noDomain (localPart : String) : HasPart ⟨localPart, none⟩ .domain ""

variable {address : Address} {text : String} {mailbox : List Char}

/-- Each part of an address has exactly one text, the one that tests compare. -/
theorem hasPart_iff {part : AddressPart} :
    address.HasPart part text ↔ address.part part = text := by
  constructor
  · rintro (_ | _ | _ | _ | _) <;> rfl
  · rintro rfl
    obtain ⟨localPart, domain⟩ := address
    cases part with
    | all =>
      cases domain with
      | none => exact .undivided localPart
      | some domain => exact .all localPart domain
    | localpart => exact .localpart localPart domain
    | domain =>
      cases domain with
      | none => exact .noDomain localPart
      | some domain => exact .domain localPart domain

/-- Some characters are left without the route. -/
theorem exists_unrouted (text : List Char) : ∃ mailbox, Unrouted text mailbox := by
  by_cases hrouted : ∃ hops mailbox, ':' ∉ hops ∧ text = '@' :: (hops ++ ':' :: mailbox)
  · obtain ⟨hops, mailbox, hcolon, rfl⟩ := hrouted
    exact ⟨mailbox, .routed hcolon mailbox⟩
  · exact ⟨text, .plain fun hops mailbox hcolon htext => hrouted ⟨hops, mailbox, hcolon, htext⟩⟩

/-- All characters spell an address. -/
theorem exists_divides (text : List Char) : ∃ address, Divides text address := by
  by_cases hat : '@' ∈ text
  · obtain ⟨after, before, htext, hlast⟩ :=
      List.eq_append_cons_of_mem (List.mem_reverse.mpr hat)
    have hdivided : text = before.reverse ++ '@' :: after.reverse := by
      rw [← List.reverse_reverse text, htext]
      simp
    rw [hdivided]
    exact ⟨_, .domain _ (mt List.mem_reverse.mp hlast)⟩
  · exact ⟨_, .localPart hat⟩

/-- The route that is dropped is the one that the characters begin with. -/
theorem Unrouted.dropRoute_eq {text : List Char} (h : Unrouted text mailbox) :
    dropRoute text = mailbox := by
  cases h with
  | @routed hops hcolon =>
    have hhops : ∀ c ∈ hops, (c != ':') = true := by
      rintro c hc
      simp only [bne_iff_ne, ne_eq]
      rintro rfl
      exact hcolon hc
    rw [dropRoute, List.dropWhile_append_of_pos hhops]
    rfl
  | plain hplain =>
    rw [dropRoute.eq_def]
    split
    · next route =>
      split
      · next c behind hbehind =>
        have hcolon : c = ':' := by
          have hhead := List.head?_dropWhile_not (· != ':') route
          rw [hbehind] at hhead
          simpa using hhead
        have hroute := List.takeWhile_append_dropWhile (p := (· != ':')) (l := route)
        rw [hbehind, hcolon] at hroute
        have hhops : ':' ∉ route.takeWhile (· != ':') := fun hmem => by
          simpa using List.mem_takeWhile_imp hmem
        exact absurd (congrArg ('@' :: ·) hroute.symm) (hplain _ _ hhops)
      · rfl
    · rfl

/-- What stands behind the last at sign of some characters. -/
theorem takeWhile_reverse_domain (localPart : List Char) {domain : List Char}
    (hlast : '@' ∉ domain) :
    ((localPart ++ '@' :: domain).reverse.takeWhile (· != '@')).reverse = domain := by
  have hdomain : ∀ c ∈ domain.reverse, (c != '@') = true := by
    intro c hc
    simp only [bne_iff_ne, ne_eq]
    rintro rfl
    exact hlast (List.mem_reverse.mp hc)
  rw [List.reverse_append, List.reverse_cons, List.append_assoc,
    List.takeWhile_append_of_pos hdomain]
  simp

/-- The address that a text spells is the one that is computed for it. -/
theorem isSpelledBy_iff : address.IsSpelledBy text ↔ ofText text = address := by
  have hcomputed : ∀ address : Address, address.IsSpelledBy text → ofText text = address := by
    rintro address ⟨mailbox, hmailbox, hdivides⟩
    simp only [ofText, hmailbox.dropRoute_eq]
    cases hdivides with
    | @domain localPart domain hlast =>
      have hbefore : (localPart ++ '@' :: domain).length - domain.length - 1 =
          localPart.length := by
        rw [List.length_append, List.length_cons]
        omega
      rw [takeWhile_reverse_domain localPart hlast, hbefore, List.take_left]
      simp
    | localPart hnone => simp [hnone]
  refine ⟨hcomputed address, ?_⟩
  rintro rfl
  obtain ⟨mailbox, hmailbox⟩ := exists_unrouted text.toList
  obtain ⟨address, hdivides⟩ := exists_divides mailbox
  have hspelled : address.IsSpelledBy text := ⟨mailbox, hmailbox, hdivides⟩
  rwa [hcomputed address hspelled]

end MailFilter.Address
