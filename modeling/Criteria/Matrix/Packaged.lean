import Criteria.Matrix.Basic

/-!
The packaged matrix: companies, contacts, deals and activities. A dotted field leads to
another entity. Operators are listed by what they do, and a field allows those of
several lists.
-/
namespace Criteria.Matrix

/-- Some operators in the order of their names. -/
def ordered (operators : List Operator) : List Operator := Operator.all.filter operators.contains

/-- Comparing with one value. -/
def equality : List Operator := [.equals, .notEquals]

/-- Choosing from several values. -/
def choice : List Operator := equality ++ [.oneOf, .noneOf]

/-- Looking for a part of a text. -/
def parts : List Operator := [.contains, .notContains]

/-- Looking for a part at the ends of a text. -/
def ends : List Operator := [.startsWith, .endsWith]

/-- Asking whether there is a value. -/
def presence : List Operator := [.isEmpty, .isNotEmpty]

/-- Comparing numbers. -/
def range : List Operator :=
  equality ++ [.greaterThan, .greaterThanOrEqual, .lessThan, .lessThanOrEqual, .between]

/-- Comparing dates. -/
def dates : List Operator := [.dateEquals, .dateBefore, .dateAfter, .dateBetween, .dateRelative]

/-- The fields of companies. -/
def companyFields : Table (List Operator) := [
  ("name", ordered (equality ++ parts ++ ends ++ presence)),
  ("industry", ordered (choice ++ presence)),
  ("status", ordered choice),
  ("companySize", ordered choice),
  ("annualRevenue", ordered (range ++ presence)),
  ("employeeCount", ordered (range ++ presence)),
  ("city", ordered (choice ++ parts ++ presence)),
  ("state", ordered (choice ++ presence)),
  ("country", ordered (choice ++ presence)),
  ("createdAt", ordered dates),
  ("updatedAt", ordered dates)]

/-- The fields of contacts. -/
def contactFields : Table (List Operator) := [
  ("firstName", ordered (equality ++ parts ++ ends)),
  ("lastName", ordered (equality ++ parts ++ ends)),
  ("email", ordered (equality ++ parts ++ presence)),
  ("jobTitle", ordered (choice ++ parts ++ presence)),
  ("department", ordered (choice ++ parts ++ presence)),
  ("status", ordered choice),
  ("isPrimary", [.equals]),
  ("preferredContact", ordered choice),
  ("company.name", ordered (equality ++ parts)),
  ("company.industry", ordered choice),
  ("createdAt", ordered dates)]

/-- The fields of deals. -/
def dealFields : Table (List Operator) := [
  ("title", ordered (equality ++ parts ++ ends)),
  ("value", ordered (range ++ presence)),
  ("status", ordered choice),
  ("priority", ordered choice),
  ("probability", ordered range),
  ("source", ordered (choice ++ parts ++ presence)),
  ("stage.name", ordered choice),
  ("stage.stageType", ordered choice),
  ("company.name", ordered (equality ++ parts)),
  ("contact.firstName", ordered (equality ++ parts)),
  ("contact.lastName", ordered (equality ++ parts)),
  ("expectedCloseDate", ordered (dates ++ presence)),
  ("createdAt", ordered dates)]

/-- The fields of activities. -/
def activityFields : Table (List Operator) := [
  ("subject", ordered (equality ++ parts ++ ends)),
  ("type", ordered choice),
  ("status", ordered choice),
  ("priority", ordered choice),
  ("company.name", ordered (equality ++ parts)),
  ("contact.firstName", ordered (equality ++ parts)),
  ("deal.title", ordered (equality ++ parts)),
  ("dueDate", ordered (dates ++ presence)),
  ("completedAt", ordered (dates ++ presence)),
  ("createdAt", ordered dates)]

/-- The priorities of deals and activities. -/
def priorities : String × List String := ("priorities", ["LOW", "MEDIUM", "HIGH", "URGENT"])

/-- The packaged matrix. -/
def packaged : Matrix where
  fields := [("companies", companyFields), ("contacts", contactFields), ("deals", dealFields),
    ("activities", activityFields)]
  search := [
    ("companies", ["name", "industry", "website", "city", "state", "country"]),
    ("contacts",
      ["firstName", "lastName", "email", "phone", "mobilePhone", "jobTitle", "department"]),
    ("deals", ["title", "description", "source"]),
    ("activities", ["subject", "description", "location"])]
  metadata := [
    ("companies", [
      ("sizes", ["STARTUP", "SMALL", "MEDIUM", "LARGE", "ENTERPRISE"]),
      ("statuses", ["ACTIVE", "PROSPECT", "CUSTOMER", "INACTIVE", "CHURNED"])]),
    ("contacts", [
      ("statuses", ["ACTIVE", "INACTIVE", "BOUNCED", "UNSUBSCRIBED", "DO_NOT_CONTACT"]),
      ("preferredContacts", ["EMAIL", "PHONE", "MOBILE", "LINKEDIN", "IN_PERSON"])]),
    ("deals", [("statuses", ["OPEN", "WON", "LOST", "POSTPONED", "CANCELLED"]), priorities]),
    ("activities", [
      ("types",
        ["CALL", "EMAIL", "MEETING", "TASK", "NOTE", "PROPOSAL", "CONTRACT", "DEMO", "FOLLOW_UP"]),
      ("statuses", ["PENDING", "IN_PROGRESS", "COMPLETED", "CANCELLED", "OVERDUE"]), priorities])]
  softDeleteField := defaultSoftDeleteField

end Criteria.Matrix
