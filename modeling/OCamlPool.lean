import OCamlPool.Runtime.Header
import OCamlPool.Pool
import OCamlPool.Reserve
import OCamlPool.Section
