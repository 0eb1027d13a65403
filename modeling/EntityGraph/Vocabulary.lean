/-!
# Vocabulary

The URIs by which the schema language names its entity types and attributes.
-/

namespace EntityGraph.Vocabulary

/-- The namespace of the type predicate. -/
def rdfNamespace : String := "http://www.w3.org/1999/02/22-rdf-syntax-ns#"

/-- The namespace of the constraint language. -/
def schemaNamespace : String := "http://data.mimiro.io/egcl/"

/-- The predicate that declares the types of an entity. -/
def rdfType : String := "http://www.w3.org/1999/02/22-rdf-syntax-ns#type"

/-! ## Entity types -/

/-- Type of a class declaration. -/
def entityClassType : String := "http://data.mimiro.io/egcl/EntityClass"
/-- Type of a constraint on a property. -/
def propertyConstraintType : String := "http://data.mimiro.io/egcl/PropertyConstraint"
/-- Type of a constraint on a reference. -/
def referenceConstraintType : String := "http://data.mimiro.io/egcl/ReferenceConstraint"
/-- Type of a constraint that makes a class abstract. -/
def abstractConstraintType : String := "http://data.mimiro.io/egcl/IsAbstractConstraint"
/-- Type of a constraint decided by a rule of the application. -/
def applicationConstraintType : String := "http://data.mimiro.io/egcl/ApplicationConstraint"

/-! ## Attributes of a class -/

/-- References of a class to its parents. -/
def subClassOf : String := "http://data.mimiro.io/egcl/subClassOf"
/-- Short name of a class. -/
def label : String := "http://data.mimiro.io/egcl/label"
/-- Description of a class. -/
def description : String := "http://data.mimiro.io/egcl/description"

/-! ## Attributes of a constraint -/

/-- The class that a constraint belongs to. -/
def entityClass : String := "http://data.mimiro.io/egcl/entityClass"
/-- The constrained property. -/
def propertyClass : String := "http://data.mimiro.io/egcl/propertyClass"
/-- The constrained reference. -/
def referenceClass : String := "http://data.mimiro.io/egcl/referenceClass"
/-- The name of the opposite direction of a reference. -/
def inverseReferenceClass : String := "http://data.mimiro.io/egcl/inverseReferenceClass"
/-- The class that targets of a reference belong to. -/
def referencedEntityClass : String := "http://data.mimiro.io/egcl/referencedEntityClass"
/-- The datatype of a property. -/
def datatype : String := "http://data.mimiro.io/egcl/datatype"
/-- Least number of occurrences. -/
def minCard : String := "http://data.mimiro.io/egcl/minCard"
/-- Greatest number of occurrences. -/
def maxCard : String := "http://data.mimiro.io/egcl/maxCard"
/-- Least number of referrers. -/
def inverseMinCard : String := "http://data.mimiro.io/egcl/inverseMinCard"
/-- Greatest number of referrers. -/
def inverseMaxCard : String := "http://data.mimiro.io/egcl/inverseMaxCard"
/-- Whether a property can be sorted by. -/
def sortable : String := "http://data.mimiro.io/egcl/sortable"
/-- Whether a property can be queried. -/
def queryable : String := "http://data.mimiro.io/egcl/queryable"
/-- Whether the values of a property are unique. -/
def isUnique : String := "http://data.mimiro.io/egcl/isunique"
/-- The rule of an application constraint. -/
def rule : String := "http://data.mimiro.io/egcl/rule"

/-- The datatype of a property constraint that names none. -/
def anyDatatype : String := "http://data.mimiro.io/egcl/Any"

end EntityGraph.Vocabulary
