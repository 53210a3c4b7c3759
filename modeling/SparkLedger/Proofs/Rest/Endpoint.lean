import SparkLedger.Rest.Endpoint

/-!
# Addresses are unambiguous

A URL is put together from parts that are separated by slashes and colons. Where no part can hold
the separator behind it, the parts can be told from the URL, so that two endpoints never share one.

* `proxyUrl_eq_iff`: the URL of a path behind a pod or a service.
* `directUrl_eq_iff`: the URL of a path on a host, which may be an address with colons.
* `addresses_are_unambiguous`: both, with the paths as they were given.
-/

namespace SparkLedger

/-! ## Separators -/

namespace Text

variable {c : Char} {xs ys us vs : List Char}

/-- What stands before the first separator, and what stands behind it. -/
theorem append_cons_inj (hx : c ∉ xs) (hy : c ∉ ys) :
    xs ++ c :: us = ys ++ c :: vs ↔ xs = ys ∧ us = vs := by
  induction xs generalizing ys with
  | nil =>
    cases ys with
    | nil => simp
    | cons y ys =>
      have hne : c ≠ y := fun h => hy (h ▸ List.mem_cons_self)
      simp [hne]
  | cons x xs ih =>
    cases ys with
    | nil =>
      have hne : x ≠ c := fun h => hx (h ▸ List.mem_cons_self)
      simp [hne]
    | cons y ys =>
      have htail := ih (fun h => hx (List.mem_cons_of_mem _ h))
        (fun h => hy (List.mem_cons_of_mem _ h))
      rw [List.cons_append, List.cons_append, List.cons.injEq, List.cons.injEq, htail, and_assoc]

/-- What stands before the last separator, and what stands behind it. -/
theorem append_cons_inj_last (hu : c ∉ us) (hv : c ∉ vs) :
    xs ++ c :: us = ys ++ c :: vs ↔ xs = ys ∧ us = vs := by
  have hback : us.reverse ++ c :: xs.reverse = vs.reverse ++ c :: ys.reverse ↔
      us.reverse = vs.reverse ∧ xs.reverse = ys.reverse :=
    append_cons_inj (mt List.mem_reverse.1 hu) (mt List.mem_reverse.1 hv)
  rw [← List.reverse_inj, List.reverse_append, List.reverse_append, List.reverse_cons,
    List.reverse_cons, List.append_assoc, List.append_assoc]
  simpa [and_comm] using hback

end Text

namespace Rest

/-! ## The parts of a URL -/

theorem toList_portText (port : Port) :
    (portText port).toList = Nat.toDigits 10 port.val.toNat := by
  rw [portText, Int.toString_eq_repr, Int.repr_eq_if, if_pos port.lo_le, Nat.toList_repr]

theorem isDigit_of_mem_portText {port : Port} {c : Char} (h : c ∈ (portText port).toList) :
    c.isDigit = true := by
  rw [toList_portText] at h
  exact Nat.isDigit_of_mem_toDigits (by decide) (by decide) h

theorem slash_notMem_portText (port : Port) : '/' ∉ (portText port).toList := fun h =>
  absurd (isDigit_of_mem_portText h) (by decide)

theorem colon_notMem_portText (port : Port) : ':' ∉ (portText port).toList := fun h =>
  absurd (isDigit_of_mem_portText h) (by decide)

theorem portText_eq_iff {p q : Port} : portText p = portText q ↔ p = q := by
  refine ⟨fun h => ?_, congrArg portText⟩
  have hdigits : Nat.toDigits 10 p.val.toNat = Nat.toDigits 10 q.val.toNat := by
    rw [← toList_portText, h, toList_portText]
  have hval := congrArg (Nat.ofDigitChars 10 · 0) hdigits
  simp only [Nat.ofDigitChars_ten_toDigits] at hval
  have hp := p.lo_le
  have hq := q.lo_le
  exact Ranged.ext (by omega)

theorem collection_eq_iff {t u : Target} : t.collection = u.collection ↔ t = u := by
  cases t <;> cases u <;> simp [Target.collection]

theorem relative_eq_iff {p q : String} :
    relative p = relative q ↔ p.toList.dropWhile (· == '/') = q.toList.dropWhile (· == '/') := by
  rw [relative, relative, String.ofList_inj]

/-- Brackets are put around an address with colons only, so that hosts without brackets of their
own can be told from what URLs have of them. -/
theorem bracketed_eq_iff {host host' : String} (h : '[' ∉ host.toList) (h' : '[' ∉ host'.toList) :
    bracketed host = bracketed host' ↔ host = host' := by
  have hmixed {s t : String} (ht : '[' ∉ t.toList) : "[" ++ s ++ "]" ≠ t := by
    rintro rfl
    simp at ht
  refine ⟨fun heq => ?_, congrArg bracketed⟩
  unfold bracketed at heq
  split at heq <;> split at heq
  · simpa [← String.toList_inj] using heq
  · exact absurd heq (hmixed h')
  · exact absurd heq.symm (hmixed h)
  · exact heq

theorem slash_notMem_bracketed {host : String} (h : '/' ∉ host.toList) :
    '/' ∉ (bracketed host).toList := by
  unfold bracketed
  split <;> simp [h]

/-! ## Whole URLs -/

variable {target target' : Target} {ns ns' name name' host host' path path' : String}
  {port port' : Port}

theorem toList_proxyUrl :
    (proxyUrl target ns name port path).toList =
      "/api/v1/namespaces/".toList ++ (ns.toList ++ '/' :: (target.collection.toList ++
        '/' :: (name.toList ++ ':' :: ((portText port).toList ++
          '/' :: ("proxy/".toList ++ (relative path).toList))))) := by
  have hslash : "/".toList = ['/'] := rfl
  have hcolon : ":".toList = [':'] := rfl
  have hproxy : "/proxy/".toList = '/' :: "proxy/".toList := rfl
  unfold proxyUrl
  simp only [String.toList_append, List.append_assoc]
  rw [hslash, hcolon, hproxy]
  simp only [List.cons_append, List.nil_append]

theorem toList_directUrl :
    (directUrl host port path).toList =
      "http://".toList ++ (((bracketed host).toList ++ ':' :: (portText port).toList) ++
        '/' :: (relative path).toList) := by
  have hslash : "/".toList = ['/'] := rfl
  have hcolon : ":".toList = [':'] := rfl
  unfold directUrl baseUrl
  simp only [String.toList_append, List.append_assoc]
  rw [hslash, hcolon]
  simp only [List.cons_append, List.nil_append]

/-- A namespace ends at the first slash, a collection at the next, a name at the first colon and a
port at the slash behind it. -/
theorem proxyUrl_eq_iff (hns : '/' ∉ ns.toList) (hns' : '/' ∉ ns'.toList)
    (hname : ':' ∉ name.toList) (hname' : ':' ∉ name'.toList) :
    proxyUrl target ns name port path = proxyUrl target' ns' name' port' path' ↔
      target = target' ∧ ns = ns' ∧ name = name' ∧ port = port' ∧
        relative path = relative path' := by
  have hcollection (t : Target) : '/' ∉ t.collection.toList := by cases t <;> decide
  rw [← String.toList_inj, toList_proxyUrl, toList_proxyUrl, List.append_right_inj,
    Text.append_cons_inj hns hns', Text.append_cons_inj (hcollection _) (hcollection _),
    Text.append_cons_inj hname hname',
    Text.append_cons_inj (slash_notMem_portText _) (slash_notMem_portText _),
    List.append_right_inj]
  simp only [String.toList_inj, collection_eq_iff, portText_eq_iff]
  exact and_left_comm

/-- A host with its port ends at the first slash, and within them the port stands behind the last
colon: a host may have colons, a port has none. -/
theorem directUrl_eq_iff (hhost : '/' ∉ host.toList) (hhost' : '/' ∉ host'.toList)
    (hbare : '[' ∉ host.toList) (hbare' : '[' ∉ host'.toList) :
    directUrl host port path = directUrl host' port' path' ↔
      host = host' ∧ port = port' ∧ relative path = relative path' := by
  have hbase {h : String} (p : Port) (hh : '/' ∉ h.toList) :
      '/' ∉ (bracketed h).toList ++ ':' :: (portText p).toList := by
    simp [slash_notMem_bracketed hh, slash_notMem_portText]
  rw [← String.toList_inj, toList_directUrl, toList_directUrl, List.append_right_inj,
    Text.append_cons_inj (hbase port hhost) (hbase port' hhost'),
    Text.append_cons_inj_last (colon_notMem_portText _) (colon_notMem_portText _)]
  simp only [String.toList_inj, bracketed_eq_iff hbare hbare', portText_eq_iff]
  exact and_assoc

/-- Two URLs on the API server's proxy are one if and only if they have one target, namespace,
name and port, and paths that differ in leading slashes only. Namespaces may have colons in this,
and names slashes. And two URLs on hosts are one if and only if they have one host and port, and
paths that differ in leading slashes only. A host may be an address with colons, but not one that
stands in brackets already. -/
theorem addresses_are_unambiguous :
    (∀ (target target' : Target) (ns ns' name name' : String) (port port' : Port)
        (path path' : String),
      '/' ∉ ns.toList → '/' ∉ ns'.toList → ':' ∉ name.toList → ':' ∉ name'.toList →
      (proxyUrl target ns name port path = proxyUrl target' ns' name' port' path' ↔
        target = target' ∧ ns = ns' ∧ name = name' ∧ port = port' ∧
          path.toList.dropWhile (· == '/') = path'.toList.dropWhile (· == '/'))) ∧
    ∀ (host host' : String) (port port' : Port) (path path' : String),
      '/' ∉ host.toList → '/' ∉ host'.toList → '[' ∉ host.toList → '[' ∉ host'.toList →
      (directUrl host port path = directUrl host' port' path' ↔
        host = host' ∧ port = port' ∧
          path.toList.dropWhile (· == '/') = path'.toList.dropWhile (· == '/')) := by
  constructor
  · intro target target' ns ns' name name' port port' path path' hns hns' hname hname'
    rw [proxyUrl_eq_iff hns hns' hname hname', relative_eq_iff]
  · intro host host' port port' path path' hhost hhost' hbare hbare'
    rw [directUrl_eq_iff hhost hhost' hbare hbare', relative_eq_iff]

/-- A pod and a service of one name are told apart; and so are a host with an address and one
whose address goes on with the port of the other, where leading slashes make no difference. -/
theorem addresses_are_unambiguous_longerAddress :
    proxyUrl .pod "jobs" "history" ⟨18080, by decide, by decide⟩ "/api" ≠
        proxyUrl .service "jobs" "history" ⟨18080, by decide, by decide⟩ "/api" ∧
      directUrl "fd00::12" ⟨4040, by decide, by decide⟩ "//api" =
        directUrl "fd00::12" ⟨4040, by decide, by decide⟩ "api" ∧
      directUrl "fd00::12" ⟨4040, by decide, by decide⟩ "/api" ≠
        directUrl "fd00::12:4040" ⟨80, by decide, by decide⟩ "/api" := by
  obtain ⟨hproxy, hdirect⟩ := addresses_are_unambiguous
  refine ⟨fun h => ?_, ?_, fun h => ?_⟩
  · have := (hproxy _ _ _ _ _ _ _ _ _ _ (by decide) (by decide) (by decide) (by decide)).1 h
    exact absurd this.1 (by decide)
  · exact (hdirect _ _ _ _ _ _ (by decide) (by decide) (by decide) (by decide)).2
      ⟨rfl, rfl, by decide⟩
  · have := (hdirect _ _ _ _ _ _ (by decide) (by decide) (by decide) (by decide)).1 h
    exact absurd this.1 (by decide)

end Rest

end SparkLedger
