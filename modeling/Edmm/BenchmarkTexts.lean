/-
  Edmm/BenchmarkTexts.lean
  ========================
  **The texts the benchmark repeats** (`_STATIC_CONTEXT_BLOCK`, `_SUFFIX_BLOCK`).

  The prompts of the benchmark are these two blocks, each repeated until the tokenizer
  makes enough tokens of it.
-/
import Mathlib.Data.List.Basic

namespace Edmm

/-- A source file, line by line. -/
def staticContextBlock : String :=
  "class HTTPRequestHandler:\n" ++ String.join [
    "    \"\"\"Base handler for incoming HTTP requests with middleware support.\"\"\"\n",
    "\n",
    "    _middleware_chain: list = []\n",
    "    _error_handlers: dict = \x7b\x7d\n",
    "    _route_cache: dict = \x7b\x7d\n",
    "\n",
    "    def __init__(self, app, request, response_class=None):\n",
    "        self.app = app\n",
    "        self.request = request\n",
    "        self.response_class = response_class or JSONResponse\n",
    "        self._state = \x7b\x7d\n",
    "        self._is_committed = False\n",
    "\n",
    "    def dispatch(self, method: str, path: str, **kwargs):\n",
    "        handler = self._resolve_route(method, path)\n",
    "        if handler is None:\n",
    "            raise RouteNotFoundError(f\"No route for \x7bmethod\x7d \x7bpath\x7d\")\n",
    "        try:\n",
    "            for mw in self._middleware_chain:\n",
    "                mw.process_request(self.request)\n",
    "            result = handler(self.request, **kwargs)\n",
    "            if not self._is_committed:\n",
    "                self._is_committed = True\n",
    "                return self.response_class(data=result, status=200)\n",
    "        except ValidationError as exc:\n",
    "            return self._handle_error(exc, status=422)\n",
    "        except PermissionDeniedError as exc:\n",
    "            return self._handle_error(exc, status=403)\n",
    "        except Exception as exc:\n",
    "            logger.exception(\"Unhandled error in %s %s\", method, path)\n",
    "            return self._handle_error(exc, status=500)\n",
    "\n",
    "    def _resolve_route(self, method, path):\n",
    "        cache_key = f\"\x7bmethod\x7d:\x7bpath\x7d\"\n",
    "        if cache_key in self._route_cache:\n",
    "            return self._route_cache[cache_key]\n",
    "        for pattern, view_fn, allowed_methods in self.app.url_rules:\n",
    "            if method in allowed_methods and pattern.match(path):\n",
    "                self._route_cache[cache_key] = view_fn\n",
    "                return view_fn\n",
    "        return None\n",
    "\n",
    "    def _handle_error(self, exc, status):\n",
    "        handler = self._error_handlers.get(type(exc), self._default_error)\n",
    "        return self.response_class(data=\x7b\"error\": str(exc)\x7d, status=status)\n",
    "\n",
    "    @staticmethod\n",
    "    def _default_error(exc):\n",
    "        return \x7b\"error\": \"Internal server error\", \"type\": type(exc).__name__\x7d\n",
    "\n",
    "\n",
    "class QuerySetManager:\n",
    "    \"\"\"Lazy-evaluated queryset with chainable filter, exclude, and prefetch.\"\"\"\n",
    "\n",
    "    def __init__(self, model_class, using=\"default\"):\n",
    "        self._model = model_class\n",
    "        self._db = using\n",
    "        self._filters = []\n",
    "        self._excludes = []\n",
    "        self._prefetch = []\n",
    "        self._order_by = []\n",
    "        self._limit = None\n",
    "        self._offset = 0\n",
    "        self._cache = None\n",
    "\n",
    "    def filter(self, **kwargs):\n",
    "        clone = self._clone()\n",
    "        clone._filters.append(kwargs)\n",
    "        return clone\n",
    "\n",
    "    def exclude(self, **kwargs):\n",
    "        clone = self._clone()\n",
    "        clone._excludes.append(kwargs)\n",
    "        return clone\n",
    "\n",
    "    def prefetch_related(self, *fields):\n",
    "        clone = self._clone()\n",
    "        clone._prefetch.extend(fields)\n",
    "        return clone\n",
    "\n",
    "    def order_by(self, *fields):\n",
    "        clone = self._clone()\n",
    "        clone._order_by = list(fields)\n",
    "        return clone\n",
    "\n",
    "    def _clone(self):\n",
    "        qs = QuerySetManager(self._model, self._db)\n",
    "        qs._filters = list(self._filters)\n",
    "        qs._excludes = list(self._excludes)\n",
    "        qs._prefetch = list(self._prefetch)\n",
    "        qs._order_by = list(self._order_by)\n",
    "        return qs\n",
    "\n",
    "    def _build_query(self):\n",
    "        sql_parts = [f\"SELECT * FROM \x7bself._model._meta.db_table\x7d\"]\n",
    "        where_clauses = []\n",
    "        for f in self._filters:\n",
    "            for key, val in f.items():\n",
    "                col, op = self._parse_lookup(key)\n",
    "                where_clauses.append(f\"\x7bcol\x7d \x7bop\x7d %s\")\n",
    "        for e in self._excludes:\n",
    "            for key, val in e.items():\n",
    "                col, op = self._parse_lookup(key)\n",
    "                where_clauses.append(f\"NOT (\x7bcol\x7d \x7bop\x7d %s)\")\n",
    "        if where_clauses:\n",
    "            sql_parts.append(\"WHERE \" + \" AND \".join(where_clauses))\n",
    "        if self._order_by:\n",
    "            cols = \", \".join(\n",
    "                f\"\x7bc.lstrip('-')\x7d \x7b'DESC' if c.startswith('-') else 'ASC'\x7d\"\n",
    "                for c in self._order_by\n",
    "            )\n",
    "            sql_parts.append(f\"ORDER BY \x7bcols\x7d\")\n",
    "        if self._limit is not None:\n",
    "            sql_parts.append(f\"LIMIT \x7bself._limit\x7d\")\n",
    "        if self._offset:\n",
    "            sql_parts.append(f\"OFFSET \x7bself._offset\x7d\")\n",
    "        return \" \".join(sql_parts)\n",
    "\n",
    "    @staticmethod\n",
    "    def _parse_lookup(key):\n",
    "        if \"__\" in key:\n",
    "            field, lookup = key.rsplit(\"__\", 1)\n",
    "            ops = \x7b\"gte\": \">=\", \"lte\": \"<=\", \"gt\": \">\", \"lt\": \"<\",\n",
    "                   \"exact\": \"=\", \"contains\": \"LIKE\", \"in\": \"IN\"\x7d\n",
    "            return field, ops.get(lookup, \"=\")\n",
    "        return key, \"=\"\n",
    "\n",
    "    def evaluate(self):\n",
    "        if self._cache is None:\n",
    "            conn = get_connection(self._db)\n",
    "            query = self._build_query()\n",
    "            self._cache = conn.execute(query).fetchall()\n",
    "            if self._prefetch:\n",
    "                self._do_prefetch(self._cache)\n",
    "        return self._cache\n",
    "\n",
    "    def _do_prefetch(self, results):\n",
    "        for field_name in self._prefetch:\n",
    "            related_model = getattr(self._model, field_name).related_model\n",
    "            ids = [getattr(r, f\"\x7bfield_name\x7d_id\") for r in results]\n",
    "            related_qs = QuerySetManager(related_model).filter(id__in=ids)\n",
    "            related_map = \x7br.id: r for r in related_qs.evaluate()\x7d\n",
    "            for r in results:\n",
    "                setattr(r, f\"_prefetched_\x7bfield_name\x7d\",\n",
    "                        related_map.get(getattr(r, f\"\x7bfield_name\x7d_id\")))\n",
    "\n",
    "\n",
    "class MigrationRunner:\n",
    "    \"\"\"Applies and rolls back database schema migrations in dependency order.\"\"\"\n",
    "\n",
    "    def __init__(self, connection, migration_dir=\"./migrations\"):\n",
    "        self.connection = connection\n",
    "        self.migration_dir = migration_dir\n",
    "        self._applied = set()\n",
    "        self._available = \x7b\x7d\n",
    "        self._graph = \x7b\x7d\n",
    "\n",
    "    def detect_migrations(self):\n",
    "        import importlib, pathlib\n",
    "        for path in sorted(pathlib.Path(self.migration_dir).glob(\"*.py\")):\n",
    "            mod = importlib.import_module(f\"migrations.\x7bpath.stem\x7d\")\n",
    "            self._available[path.stem] = mod\n",
    "            deps = getattr(mod, \"dependencies\", [])\n",
    "            self._graph[path.stem] = deps\n",
    "\n",
    "    def get_applied(self):\n",
    "        try:\n",
    "            rows = self.connection.execute(\n",
    "                \"SELECT name FROM _migration_history ORDER BY applied_at\"\n",
    "            ).fetchall()\n",
    "            self._applied = \x7br[0] for r in rows\x7d\n",
    "        except Exception:\n",
    "            self.connection.execute(\n",
    "                \"CREATE TABLE _migration_history \"\n",
    "                \"(name TEXT PRIMARY KEY, applied_at TIMESTAMP DEFAULT CURRENT_TIMESTAMP)\"\n",
    "            )\n",
    "            self._applied = set()\n",
    "\n",
    "    def apply_pending(self):\n",
    "        order = self._topological_sort()\n",
    "        for name in order:\n",
    "            if name not in self._applied:\n",
    "                mod = self._available[name]\n",
    "                print(f\"Applying migration: \x7bname\x7d\")\n",
    "                mod.upgrade(self.connection)\n",
    "                self.connection.execute(\n",
    "                    \"INSERT INTO _migration_history (name) VALUES (%s)\", (name,)\n",
    "                )\n",
    "\n",
    "    def rollback(self, target):\n",
    "        order = list(reversed(self._topological_sort()))\n",
    "        for name in order:\n",
    "            if name in self._applied and name != target:\n",
    "                mod = self._available[name]\n",
    "                if hasattr(mod, \"downgrade\"):\n",
    "                    print(f\"Rolling back: \x7bname\x7d\")\n",
    "                    mod.downgrade(self.connection)\n",
    "                    self.connection.execute(\n",
    "                        \"DELETE FROM _migration_history WHERE name = %s\", (name,)\n",
    "                    )\n",
    "            if name == target:\n",
    "                break\n",
    "\n",
    "    def _topological_sort(self):\n",
    "        visited, result = set(), []\n",
    "        def visit(node):\n",
    "            if node in visited:\n",
    "                return\n",
    "            visited.add(node)\n",
    "            for dep in self._graph.get(node, []):\n",
    "                visit(dep)\n",
    "            result.append(node)\n",
    "        for node in self._graph:\n",
    "            visit(node)\n",
    "        return result\n"]

/-- The task, for a reviewing agent. -/
def suffixBlock : String :=
  "You are a senior software engineer performing an agentic code review. " ++ String.join [
    "Given the repository source files, execution logs, and error traces loaded above, ",
    "identify the root cause of the failing test suite. Produce a minimal unified diff ",
    "(git diff format) that fixes the regression without altering the public API surface. ",
    "Verify that your patch handles all edge cases visible in the stack trace, including ",
    "null pointer dereferences, off-by-one index errors, and unclosed resource handles. ",
    "Ensure backward compatibility with callers that rely on the previous return type. ",
    "After generating the patch, list each modified file with a one-line rationale. "]

end Edmm
